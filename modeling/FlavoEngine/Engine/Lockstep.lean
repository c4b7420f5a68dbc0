import FlavoEngine.Lib.Rounds
import FlavoEngine.Engine.Frames

/-!
# Lockstep of the frames

The frames of the game loop are rounds: the parties are the two tasks, a launch is a `submit`, a
task finishes when both its results are there, and `SyncGameRender` closes the round. The loop
simulates the account of `Lib.Rounds` in every run without exceptions and aborts.

Results:
1. `rounds_simulated`: the loop simulates the account.
2. `frame_lockstep`: at most one task of each kind is in flight; the `n`-th `SyncGameRender` runs
   after exactly `n` completions of each task; a task is submitted after the synchronisation of the
   frame before; and nothing is in flight when `Loop` returns.
-/

namespace FlavoEngine.Engine

open FlavoEngine.Lib
open MovesLemmas FramedLemmas

/-! ## Counts -/

namespace State

def submitted (s : State) (k : TaskKind) : Nat :=
  s.tasks.countP fun t => t.kind == k

def completed (s : State) (k : TaskKind) : Nat :=
  s.tasks.countP fun t => t.kind == k && t.complete

/-- Submitted and not yet complete. -/
def inFlight (s : State) (k : TaskKind) : Nat :=
  s.tasks.countP fun t => t.kind == k && !t.complete

/-- The account of the frames. -/
def rounds (s : State) : Rounds TaskKind :=
  ⟨s.syncsDone, s.submitted, s.completed⟩

theorem submitted_eq (s : State) (k : TaskKind) :
    s.submitted k = s.completed k + s.inFlight k := by
  unfold submitted completed inFlight
  induction s.tasks with
  | nil => rfl
  | cons t ts ih =>
    simp only [List.countP_cons, ih]
    cases t.kind == k <;> cases t.complete <;> simp <;> omega

end State

/-- The tasks complete without an exception, and no assertion aborts. -/
def Normal (s : State) : Label → Prop
  | .submit o => o = .enqueued
  | .call _ _ .innerException | .call _ _ .outerException => False
  | .check a => s.point = .check false → a = .ignore
  | _ => True

instance (s : State) : DecidablePred (Normal s) := by
  intro l
  unfold Normal
  split <;> infer_instance

/-- The frame invariant of the runs without exceptions, with the counts. -/
structure InStep (s : State) : Prop where
  framed : Framed s
  clean : ∀ (i : Nat) (t : Task), s.tasks[i]? = some t →
    t.outer.producer ≠ .exception ∧ t.inner.producer ≠ .exception
  unfailed : ¬ s.failed
  launched : ∀ k, s.submitted k = s.syncsDone + (s.point.live k).toNat
  synced : s.syncsRun = s.syncsDone + if s.point = .inSync then 1 else 0

namespace LockstepLemmas

variable {s s' : State}

theorem completed_of_owes (h : InStep s)
    (howes : ∀ k, s.point.owes k = false) (k : TaskKind) : s.completed k = s.submitted k := by
  unfold State.completed State.submitted
  refine List.countP_congr fun t ht => ?_
  obtain ⟨i, hi⟩ := List.getElem?_of_mem ht
  rw [complete_of_owes h.framed h.unfailed hi (howes _), Bool.and_true]

theorem inFlight_eq_zero (h : s.completed k = s.submitted k) : s.inFlight k = 0 := by
  rw [s.submitted_eq k] at h
  exact Nat.left_eq_add.mp h

/-! ### Counts over a change of one task -/

variable {i : Nat} {t t' : Task}

theorem countP_set_add {l : List Task} {p : Task → Bool} (h : l[i]? = some t) (t' : Task) :
    (l.set i t').countP p + (p t).toNat = l.countP p + (p t').toNat := by
  induction l generalizing i with
  | nil => simp at h
  | cons u us ih =>
    cases i with
    | zero =>
      simp only [List.getElem?_cons_zero, Option.some.injEq] at h
      subst h
      simp only [List.set_cons_zero, List.countP_cons]
      cases p u <;> cases p t' <;> simp
    | succ i =>
      have := ih (by simpa using h)
      simp only [List.set_cons_succ, List.countP_cons]
      omega

theorem submitted_set (ht : s.tasks[i]? = some t) (hkind : t'.kind = t.kind) (k : TaskKind) :
    (s.setTask i t').submitted k = s.submitted k := by
  have := countP_set_add (p := fun t => t.kind == k) ht t'
  simp only [hkind] at this
  exact Nat.add_right_cancel this

theorem completed_set (ht : s.tasks[i]? = some t) (hkind : t'.kind = t.kind)
    (hcomplete : t'.complete = t.complete) (k : TaskKind) :
    (s.setTask i t').completed k = s.completed k := by
  have := countP_set_add (p := fun t => t.kind == k && t.complete) ht t'
  simp only [hkind, hcomplete] at this
  exact Nat.add_right_cancel this

/-- The account when the task `t` completes. -/
theorem completed_finish (ht : s.tasks[i]? = some t) (hkind : t'.kind = t.kind)
    (hbefore : t.complete = false) (hafter : t'.complete = true) :
    (s.setTask i t').completed =
      Function.update s.completed t.kind (s.completed t.kind + 1) := by
  funext k
  have := countP_set_add (p := fun t => t.kind == k && t.complete) ht t'
  simp only [hkind, hbefore, hafter, Bool.and_false, Bool.and_true, Bool.toNat_false] at this
  by_cases hk : k = t.kind
  · subst hk
    rw [Function.update_self]
    show (s.tasks.set i t').countP _ = s.tasks.countP _ + 1
    simpa using this
  · rw [Function.update_of_ne hk]
    show (s.tasks.set i t').countP _ = s.tasks.countP _
    simpa [beq_eq_false_iff_ne.mpr (Ne.symm hk)] using this

theorem submitted_push (k : TaskKind) (t : Task) (hkind : t.kind = k) :
    (s.push k t).submitted = Function.update s.submitted k (s.submitted k + 1) := by
  funext j
  show (s.tasks ++ [t]).countP (fun t => t.kind == j) = _
  rw [List.countP_append, List.countP_singleton, hkind]
  by_cases hj : j = k
  · subst hj
    rw [Function.update_self]
    simp [State.submitted]
  · rw [Function.update_of_ne hj]
    simp [State.submitted, Ne.symm hj]

theorem completed_push (k : TaskKind) (t : Task) (hcomplete : t.complete = false) :
    (s.push k t).completed = s.completed := by
  funext j
  show (s.tasks ++ [t]).countP (fun t => t.kind == j && t.complete) = _
  rw [List.countP_append, List.countP_singleton, hcomplete]
  simp [State.completed]

/-! ### The moves -/

/-- A step that leaves the counts and the synchronisation alone. -/
theorem inStep_of_counts (h : InStep s) (hf : Framed s')
    (hclean : ∀ (i : Nat) (t : Task), s'.tasks[i]? = some t →
      t.outer.producer ≠ .exception ∧ t.inner.producer ≠ .exception)
    (hunfailed : ¬ s'.failed) (hsubmitted : ∀ k, s'.submitted k = s.submitted k)
    (hdone : s'.syncsDone = s.syncsDone) (hrun : s'.syncsRun = s.syncsRun)
    (hlive : ∀ k, s'.point.live k = s.point.live k)
    (hin : s'.point = .inSync ↔ s.point = .inSync) : InStep s' where
  framed := hf
  clean := hclean
  unfailed := hunfailed
  launched := fun k => by
    rw [hsubmitted, hdone, hlive]
    exact h.launched k
  synced := by
    simp only [hrun, hdone, hin]
    exact h.synced

/-- `Loop` moves on with the tasks as they are. -/
theorem inStep_move (h : InStep s) (hf : Framed s') (htasks : s'.tasks = s.tasks)
    (hunfailed : ¬ s'.failed) (hdone : s'.syncsDone = s.syncsDone)
    (hrun : s'.syncsRun = s.syncsRun) (hlive : ∀ k, s'.point.live k = s.point.live k)
    (hin : s'.point = .inSync ↔ s.point = .inSync) : InStep s' := by
  refine inStep_of_counts h hf (fun i t ht => h.clean i t (htasks ▸ ht)) hunfailed (fun k => ?_)
    hdone hrun hlive hin
  unfold State.submitted
  rw [htasks]

/-- One task goes on. -/
theorem inStep_update (h : InStep s) (hf : Framed s') (ht : s.tasks[i]? = some t)
    (htasks : s'.tasks = s.tasks.set i t') (hkind : t'.kind = t.kind)
    (hclean : t'.outer.producer ≠ .exception ∧ t'.inner.producer ≠ .exception)
    (hunfailed : ¬ s'.failed) (hdone : s'.syncsDone = s.syncsDone)
    (hrun : s'.syncsRun = s.syncsRun) (hlive : ∀ k, s'.point.live k = s.point.live k)
    (hin : s'.point = .inSync ↔ s.point = .inSync) : InStep s' := by
  refine inStep_of_counts h hf (fun j u hu => ?_) hunfailed (fun k => ?_) hdone hrun hlive hin
  · rw [htasks] at hu
    rcases getElem?_set_cases hu with ⟨_, rfl⟩ | ⟨_, hu⟩
    · exact hclean
    · exact h.clean j u hu
  · calc s'.submitted k = (s.setTask i t').submitted k := by
          unfold State.submitted State.setTask
          rw [htasks]
      _ = s.submitted k := submitted_set ht hkind k

/-- A task is submitted, the next one of its kind. -/
theorem inStep_enqueued (h : InStep s) {k : TaskKind} (hpoint : s.point = .submit k)
    (hf : Framed (s.push k { kind := k })) : InStep (s.push k { kind := k }) where
  framed := hf
  clean := by
    intro i t ht
    rcases getElem?_push_cases ht with ⟨_, rfl⟩ | ht
    · exact ⟨nofun, nofun⟩
    · exact h.clean i t ht
  unfailed := by
    have hu := h.unfailed
    cases k <;> exact hu
  launched := by
    intro j
    have hl := h.launched j
    rw [hpoint] at hl
    rw [submitted_push k _ rfl]
    revert hl
    cases k <;> cases j <;> simp [Function.update, Point.live, State.push, State.setFuture]
  synced := by
    have hs := h.synced
    rw [hpoint] at hs
    cases k <;> exact hs

theorem rounds_eq (htasks : s'.tasks = s.tasks) (hdone : s'.syncsDone = s.syncsDone) :
    s'.rounds = s.rounds := by
  unfold State.rounds State.submitted State.completed
  rw [htasks, hdone]

/-- One task goes on without completing. -/
theorem rounds_set (ht : s.tasks[i]? = some t) (htasks : s'.tasks = s.tasks.set i t')
    (hdone : s'.syncsDone = s.syncsDone) (hkind : t'.kind = t.kind)
    (hcomplete : t'.complete = t.complete) : s'.rounds = s.rounds := by
  calc s'.rounds = (s.setTask i t').rounds := rounds_eq htasks hdone
    _ = ⟨s.syncsDone, (s.setTask i t').submitted, (s.setTask i t').completed⟩ := rfl
    _ = s.rounds := by
      rw [funext (submitted_set ht hkind), funext (completed_set ht hkind hcomplete)]
      rfl

theorem inStep_init : InStep State.init where
  framed := framed_init
  clean := fun i t ht => by simp [State.init] at ht
  unfailed := fun hf => nomatch hf
  launched := fun _ => rfl
  synced := rfl

theorem call_clean {w : Nat} {o : Outcome} (hn : Normal s (.call w i o))
    (hc : t.call w o = some t') :
    t'.outer.producer ≠ .exception ∧ t'.inner.producer ≠ .exception := by
  cases o with
  | returned reply =>
    obtain ⟨ho, hi⟩ := Task.call_returned hc
    rw [ho, hi]
    exact ⟨nofun, nofun⟩
  | innerException | outerException => exact hn.elim

/-- No task of such a run holds an exception. -/
theorem not_throws (h : InStep s) {k : TaskKind} (ht : s.awaited k = some (i, t)) {l : Level} :
    ¬ t.throws l := by
  have hclean := h.clean i t (awaited_eq_some.mp ht).2
  cases l with
  | outer => exact hclean.1
  | inner => exact hclean.2

/-- Every move of such a run keeps the invariant. -/
theorem inStep_moves (h : InStep s) {l : Label} (hn : Normal s l) (hm : Moves s l s') :
    InStep s' := by
  have hf := framed_moves h.framed hm
  cases hm with
  | construct | post | leaveGet =>
    exact inStep_move h hf rfl h.unfailed rfl rfl (fun _ => rfl) Iff.rfl
  | enterGet =>
    refine inStep_move h hf rfl ?_ rfl rfl (fun _ => rfl) Iff.rfl
    have hu := h.unfailed
    unfold State.failed ResultState.wait at *
    dsimp only
    split <;> exact hu
  | peekNone _ hpoint | peekSome _ hpoint | dispatch _ hpoint | ready _ hpoint | unwrap _ hpoint
  | checked _ hpoint | publish _ hpoint =>
    exact inStep_move h hf rfl h.unfailed rfl rfl (fun k => by rw [hpoint]; cases k <;> rfl)
      (by simp [hpoint])
  | peekQuit _ hpoint =>
    exact inStep_move h hf rfl (fun hfail => nomatch hfail) rfl rfl (fun _ => by rw [hpoint]; rfl)
      (by simp [hpoint])
  | reply _ hpoint _ _ hp =>
    rcases afterReply_eq hp with ⟨_, rfl⟩ | ⟨_, isOk, rfl⟩
    all_goals
      exact inStep_move h hf rfl h.unfailed rfl rfl (fun _ => by rw [hpoint]; rfl)
        (by simp [hpoint])
  | enqueued _ hpoint => exact inStep_enqueued h hpoint hf
  | broken => cases hn
  | throws => cases hn
  | abort _ hpoint => exact nomatch hn hpoint
  | rethrow _ _ ht hthrows => exact absurd hthrows (not_throws h ht)
  | @suspend _ k l i u _ hpoint ht hidle =>
    refine inStep_update h hf (awaited_eq_some.mp ht).2 rfl (Task.await_kind l) ?_ h.unfailed rfl
      rfl (fun _ => by rw [hpoint]; rfl) (by simp [hpoint])
    have hclean := h.clean i u (awaited_eq_some.mp ht).2
    cases l <;> simp only [Task.await, ResultState.await] <;> split <;> exact hclean
  | startSync _ hpoint =>
    have hs := h.synced
    rw [hpoint] at hs
    refine ⟨hf, h.clean, h.unfailed, fun k => ?_, congrArg (· + 1) hs⟩
    have hl := h.launched k
    rw [hpoint] at hl
    exact hl
  | endSync _ hpoint =>
    have hs := h.synced
    rw [hpoint] at hs
    refine ⟨hf, h.clean, h.unfailed, fun k => ?_, hs⟩
    have hl := h.launched k
    rw [hpoint] at hl
    exact hl
  | start _ ht hstart =>
    have hclean := h.clean _ _ ht
    obtain ⟨_, rfl⟩ := Task.start_eq hstart
    exact inStep_update h hf ht rfl rfl hclean h.unfailed rfl rfl (fun _ => rfl) Iff.rfl
  | call ht hc =>
    exact inStep_update h hf ht rfl (Task.call_eq hc).2.2.1 (call_clean hn hc) h.unfailed rfl rfl
      (fun _ => rfl) Iff.rfl
  | wake ht hp hpoint =>
    have hclean := h.clean _ _ ht
    obtain ⟨_, _, rfl⟩ := Task.publish_eq hp
    exact inStep_update h hf ht rfl rfl hclean h.unfailed rfl rfl (fun _ => by rw [hpoint]; rfl)
      (by simp [hpoint])
  | complete ht hp =>
    have hclean := h.clean _ _ ht
    obtain ⟨_, _, rfl⟩ := Task.publish_eq hp
    exact inStep_update h hf ht rfl rfl hclean h.unfailed rfl rfl (fun _ => rfl) Iff.rfl

/-- A task that publishes finishes in the account. -/
theorem rounds_publish (h : InStep s) {w : Nat} {p : PcState} (ht : s.tasks[i]? = some t)
    (hp : t.publish w = some (p, t')) (htasks : s'.tasks = s.tasks.set i t')
    (hdone : s'.syncsDone = s.syncsDone) : Rounds.Step s.rounds s'.rounds := by
  have hsound := h.framed.sound i t ht
  have hafter : t'.complete = true := by
    refine (hsound.publish hp).complete_iff.mpr ?_
    rw [(Task.publish_eq hp).2.2]
  have hkind : t'.kind = t.kind := by rw [(Task.publish_eq hp).2.2]
  have hbefore : t.complete = false := by
    rw [Bool.eq_false_iff, Ne, hsound.complete_iff, (Task.publish_eq hp).1]
    nofun
  have hrounds : s'.rounds = { s.rounds with
      finished := Function.update s.completed t.kind (s.completed t.kind + 1) } := by
    calc s'.rounds = (s.setTask i t').rounds := rounds_eq htasks hdone
      _ = ⟨s.syncsDone, (s.setTask i t').submitted, (s.setTask i t').completed⟩ := rfl
      _ = ⟨s.syncsDone, s.submitted, _⟩ := by
        rw [funext (submitted_set ht hkind), completed_finish ht hkind hbefore hafter]
  rw [hrounds]
  refine .finish t.kind ?_
  show s.completed t.kind < s.submitted t.kind
  have hflight : 0 < s.inFlight t.kind := by
    unfold State.inFlight
    exact List.countP_pos_iff.mpr ⟨t, List.mem_of_getElem? ht, by simp [hbefore]⟩
  rw [s.submitted_eq t.kind]
  exact Nat.lt_add_of_pos_right hflight

/-- Every move is a step of the account, or leaves it alone. -/
theorem rounds_moves (h : InStep s) {l : Label} (hn : Normal s l) (hm : Moves s l s') :
    s'.rounds = s.rounds ∨ Rounds.Step s.rounds s'.rounds := by
  cases hm with
  | @enqueued _ k _ hpoint =>
    refine .inr ?_
    have hrounds : (s.push k { kind := k }).rounds = { s.rounds with
        launched := Function.update s.submitted k (s.submitted k + 1) } := by
      unfold State.rounds
      rw [submitted_push k _ rfl, completed_push k _ rfl]
      cases k <;> rfl
    rw [hrounds]
    refine .launch k ?_
    have hl := h.launched k
    rw [hpoint] at hl
    rw [show s.rounds.launched k = s.submitted k from rfl, hl]
    cases k <;> rfl
  | endSync _ hpoint =>
    refine .inr (.close fun k => ?_)
    show s.completed k = s.syncsDone + 1
    rw [completed_of_owes h (fun _ => by rw [hpoint]; rfl), h.launched,
      hpoint]
    rfl
  | broken => cases hn
  | throws => cases hn
  | @suspend _ k l i u _ _ ht hidle =>
    refine .inl (rounds_set (awaited_eq_some.mp ht).2 rfl rfl (Task.await_kind l) ?_)
    cases l <;> simp_all [Task.await, ResultState.await, Task.complete, Task.pcState] <;> rfl
  | rethrow _ _ ht hthrows => exact absurd hthrows (not_throws h ht)
  | start _ ht hstart =>
    obtain ⟨_, rfl⟩ := Task.start_eq hstart
    exact .inl (rounds_set ht rfl rfl rfl rfl)
  | call ht hc =>
    obtain ⟨hstarted, hcalled, hkind, _⟩ := Task.call_eq hc
    have hsound := h.framed.sound _ _ ht
    refine .inl (rounds_set ht rfl rfl hkind ?_)
    rw [Bool.eq_iff_iff, (hsound.call hc).complete_iff, hsound.complete_iff, hstarted, hcalled]
    simp
  | wake ht hp => exact .inr (rounds_publish h ht hp rfl rfl)
  | complete ht hp => exact .inr (rounds_publish h ht hp rfl rfl)
  | _ => exact .inl (rounds_eq rfl rfl)

theorem rounds_init : State.init.rounds = Rounds.empty :=
  rfl

end LockstepLemmas

open LockstepLemmas

/-! ## Lockstep -/

theorem inStep_of_run {tr : List (State × Label × State)} {s : State}
    (h : Run Step State.init tr s) (hn : Meets Normal tr) : InStep s :=
  h.inv inStep_init (fun hi hl hs => inStep_moves hi hl hs.moves) hn

/-- The game loop simulates the account of the rounds. -/
theorem rounds_simulated {tr : List (State × Label × State)} {s : State}
    (h : Run Step State.init tr s) (hn : Meets Normal tr) :
    Relation.ReflTransGen Rounds.Step Rounds.empty s.rounds := by
  rw [← rounds_init]
  exact h.simulates inStep_init (fun hi hl hs => inStep_moves hi hl hs.moves)
    (fun hi hl hs => rounds_moves hi hl hs.moves) hn

/-- What lockstep says about a state: at most one task of each kind is in flight; while the `n`-th
`SyncGameRender` runs, exactly `n` tasks of each kind have completed and none is in flight; and when
`Loop` has returned 0, none is in flight and the counts of the two kinds and of the frames agree. -/
structure InLockstep (s : State) : Prop where
  one : ∀ k, s.inFlight k ≤ 1
  atSync : s.point = .inSync → ∀ k, s.completed k = s.syncsRun ∧ s.inFlight k = 0
  atReturn : s.ready → s.result.producer = .value 0 →
    ∀ k, s.inFlight k = 0 ∧ s.completed k = s.syncsDone ∧ s.syncsRun = s.syncsDone

/-- A `submit` starts a task of the frame after the last one that `SyncGameRender` closed. -/
def SubmitsInTurn (s : State) : Label → Prop
  | .submit _ => ∀ k, s.point = .submit k →
      s.submitted k = s.syncsDone ∧ s.syncsRun = s.syncsDone
  | _ => True

namespace LockstepLemmas

variable {s s' : State}

theorem inLockstep_of_inStep (h : InStep s) (hpaced : s.rounds.Paced)
    (hdone : s.ready → s.point = .done) : InLockstep s where
  one := fun k => by
    have hopen : s.submitted k - s.completed k ≤ 1 := hpaced.open_le_one k
    rw [s.submitted_eq k, Nat.add_sub_cancel_left] at hopen
    exact hopen
  atSync := fun hpoint k => by
    have hs := h.synced
    have hl := h.launched k
    have hc := completed_of_owes h (fun _ => by rw [hpoint]; rfl) k
    rw [hpoint] at hs hl
    refine ⟨?_, inFlight_eq_zero hc⟩
    rw [hc, hl, hs]
    rfl
  atReturn := fun hready _ k => by
    have hpoint := hdone hready
    have hs := h.synced
    have hl := h.launched k
    have hc := completed_of_owes h (fun _ => by rw [hpoint]; rfl) k
    rw [hpoint] at hs hl
    exact ⟨inFlight_eq_zero hc, hc.trans hl, hs⟩

theorem submitsInTurn_of_inStep (h : InStep s) (l : Label) : SubmitsInTurn s l := by
  unfold SubmitsInTurn
  split
  · intro k hpoint
    have hs := h.synced
    have hl := h.launched k
    rw [hpoint] at hs hl
    exact ⟨by cases k <;> exact hl, hs⟩
  · trivial

end LockstepLemmas

/-- Frame lockstep of the game loop, in every run without exceptions and aborts. Every state that a
run reaches is the end of a run, so the first part holds at every moment. -/
theorem frame_lockstep {tr : List (State × Label × State)} {s : State}
    (h : Run Step State.init tr s) (hn : Meets Normal tr) :
    InLockstep s ∧ ∀ t ∈ tr, SubmitsInTurn t.1 t.2.1 := by
  constructor
  · have hpaced := Rounds.paced_of_steps Rounds.paced_empty (rounds_simulated h hn)
    exact inLockstep_of_inStep (inStep_of_run h hn) hpaced (point_of_ready h)
  · intro t ht
    have hinv := h.inv_mem (I := InStep) inStep_init
      (fun hi hl hs => inStep_moves hi hl hs.moves) hn ht
    exact submitsInTurn_of_inStep hinv.1 t.2.1

/-- `Loop` returns after one frame. -/
theorem frame_lockstep_one :
    ∃ tr s, Run Step State.init tr s ∧ InLockstep s ∧ (∀ t ∈ tr, SubmitsInTurn t.1 t.2.1) ∧
      s.result = ⟨.producerDone, .value 0⟩ ∧ s.syncsDone = 1 := by
  obtain ⟨tr, s, hrun, -, hview⟩ := exists_run step (R := Step) id State.init oneFrame
    (fun r => (r.1.all fun t => decide (Normal t.1 t.2.1), r.2.result, r.2.syncsDone))
    (v := (true, ⟨.producerDone, .value 0⟩, 1)) (by decide +kernel)
  rw [Prod.mk.injEq, Prod.mk.injEq] at hview
  obtain ⟨hnormal, hresult, hsyncs⟩ := hview
  obtain ⟨hstate, hsubmits⟩ := frame_lockstep hrun (meets_of_all hnormal)
  exact ⟨tr, s, hrun, hstate, hsubmits, hresult, hsyncs⟩

end FlavoEngine.Engine

import FlavoEngine.Engine.Frames

/-!
# Thread affinity of the message pump

`PeekMessage` with no window reads the queue of the calling thread only, so `Loop` has to pump on
the thread that created the window. A coroutine goes on where it was resumed: an await that suspends
`Loop` moves it to the worker that completes the task, and nothing moves it back.

Results:
1. `pump_affinity_iff`: a run pumps only on the window's thread exactly when no await that suspends
   `Loop` comes before a later pump.
2. `window_messages_unread`: after such an await, no message at the window's thread is ever taken.
3. `pump_on_worker`: a run in which the second frame is pumped on a worker, and the `WM_QUIT` of the
   window stays in its queue.
-/

namespace FlavoEngine.Engine

open FlavoEngine.Lib
open MovesLemmas FramedLemmas

/-- `PeekMessage` and `DispatchMessage`. -/
def Label.pumps : Label → Bool
  | .peek _ | .dispatch => true
  | _ => false

/-- A pump runs on the thread that created the window. -/
def PumpsOnWindow (s : State) (l : Label) : Prop :=
  l.pumps = true → s.carrier = s.window

instance (s : State) (l : Label) : Decidable (PumpsOnWindow s l) := by
  unfold PumpsOnWindow
  infer_instance

/-- An await that finds its result incomplete. -/
def Suspends (s : State) (l : Label) : Prop :=
  l = .await ∧ ∃ k lv i t, s.point = .await k lv ∧ s.awaited k = some (i, t) ∧
    t.pcState lv ≠ .producerDone

/-- The window is created by the main thread, before `Loop` starts. -/
def State.Located (s : State) : Prop :=
  (s.winMain = .constructing ∧ s.carrier = none ∧ s.point = .peek) ∨
    (s.winMain ≠ .constructing ∧ s.window = some .main)

/-- `Loop` has been on the main thread from its start. -/
structure State.Unmoved (s : State) : Prop where
  located : s.Located
  running : ∀ k l, s.point ≠ .suspended k l
  onMain : ∀ t, s.carrier = some t → t = .main

/-- `Loop` has left the main thread, where the messages `q` are at the head of the queue. -/
structure State.Moved (q : List Message) (s : State) : Prop where
  constructed : s.winMain ≠ .constructing
  window : s.window = some .main
  offMain : s.carrier ≠ some .main
  unread : q <+: s.queues .main

namespace ThreadAffinityLemmas

variable {s s' : State} {l : Label}

theorem located_init : State.init.Located :=
  .inl ⟨rfl, rfl, rfl⟩

/-- While the window is missing, nothing runs `Loop`. -/
theorem constructed_of_carrier (h : s.Located) {t : Thread} (hcarrier : s.carrier = some t) :
    s.winMain ≠ .constructing ∧ s.window = some .main := by
  rcases h with ⟨_, hnone, _⟩ | h
  · rw [hnone] at hcarrier
    cases hcarrier
  · exact h

theorem located_of_same (h : s.Located) {t : Thread} (hcarrier : s.carrier = some t)
    (hwin : s'.winMain = s.winMain) (hwindow : s'.window = s.window) : s'.Located := by
  unfold State.Located
  rw [hwin, hwindow]
  exact .inr (constructed_of_carrier h hcarrier)

theorem located_moves (h : s.Located) (hm : Moves s l s') : s'.Located := by
  cases hm with
  | construct => exact .inr ⟨nofun, rfl⟩
  | enterGet hwin | leaveGet hwin =>
    rcases h with ⟨hno, _⟩ | ⟨_, hwindow⟩
    · rw [hwin] at hno
      cases hno
    · exact .inr ⟨nofun, hwindow⟩
  | post | start | call | complete => exact h
  | wake _ _ hpoint =>
    rcases h with ⟨_, _, hpeek⟩ | h
    · rw [hpoint] at hpeek
      cases hpeek
    · exact .inr h
  | enqueued hcarrier | broken hcarrier =>
    have hsame := sameThreads_push (s := s)
    exact located_of_same h hcarrier (hsame _ _).1 (hsame _ _).2.1
  | throws hcarrier | rethrow hcarrier =>
    exact located_of_same h hcarrier sameThreads_unwind.1 sameThreads_unwind.2.1
  | peekNone hcarrier | peekQuit hcarrier | peekSome hcarrier | dispatch hcarrier
  | suspend hcarrier | ready hcarrier | unwrap hcarrier | reply hcarrier | checked hcarrier
  | abort hcarrier | startSync hcarrier | endSync hcarrier | publish hcarrier =>
    exact located_of_same h hcarrier rfl rfl

theorem unmoved_init : State.init.Unmoved where
  located := located_init
  running := nofun
  onMain := nofun

theorem unmoved_of_eq (h : s.Unmoved) (hlocated : s'.Located)
    (hpoint : ∀ k l, s'.point ≠ .suspended k l) (hcarrier : s'.carrier = s.carrier) :
    s'.Unmoved where
  located := hlocated
  running := hpoint
  onMain := fun t ht => h.onMain t (hcarrier ▸ ht)

/-- Without a suspension `Loop` stays on the main thread. -/
theorem unmoved_moves (h : s.Unmoved) (hn : ¬ Suspends s l) (hm : Moves s l s') :
    s'.Unmoved := by
  have hl := located_moves h.located hm
  cases hm with
  | construct => exact ⟨hl, h.running, fun t ht => (Option.some.inj ht).symm⟩
  | post | enterGet | leaveGet | start | call | complete =>
    exact unmoved_of_eq h hl h.running rfl
  | suspend _ hpoint ht hidle =>
    refine absurd ⟨rfl, _, _, _, _, hpoint, ht, ?_⟩ hn
    rw [hidle]
    decide
  | wake _ _ hpoint => exact absurd hpoint (h.running _ _)
  | @enqueued _ k | @broken _ k =>
    exact unmoved_of_eq h hl (by cases k <;> nofun) (sameThreads_push k _).2.2.1
  | throws | rethrow => exact unmoved_of_eq h hl nofun sameThreads_unwind.2.2.1
  | reply _ _ _ _ hp =>
    rcases afterReply_eq hp with ⟨_, rfl⟩ | ⟨_, isOk, rfl⟩
    · exact unmoved_of_eq h hl nofun rfl
    · exact unmoved_of_eq h hl nofun rfl
  | publish => exact ⟨hl, nofun, nofun⟩
  | peekNone | peekQuit | peekSome | dispatch | ready | unwrap | checked | abort | startSync
  | endSync => exact unmoved_of_eq h hl nofun rfl

theorem carrier_of_pumps (hl : l.pumps = true) (hm : Moves s l s') : ∃ t, s.carrier = some t := by
  cases hm with
  | peekNone hcarrier | peekQuit hcarrier | peekSome hcarrier | dispatch hcarrier =>
    exact ⟨_, hcarrier⟩
  | _ => cases hl

theorem moved_of_same {q : List Message} (h : s.Moved q) (hsame : SameThreads s s') :
    s'.Moved q := by
  obtain ⟨hwin, hwindow, hcarrier, hqueues⟩ := hsame
  constructor
  · rw [hwin]
    exact h.constructed
  · rw [hwindow]
    exact h.window
  · rw [hcarrier]
    exact h.offMain
  · rw [hqueues]
    exact h.unread

/-- The queue of a thread other than the main one changes. -/
theorem moved_setQueue {q : List Message} (h : s.Moved q) {t : Thread} (ht : t ≠ .main)
    (msgs : List Message) : (s.setQueue t msgs).Moved q := by
  refine ⟨h.constructed, h.window, h.offMain, ?_⟩
  show q <+: if Thread.main = t then msgs else s.queues .main
  rw [if_neg (Ne.symm ht)]
  exact h.unread

/-- Nothing moves `Loop` back to the main thread. -/
theorem moved_moves {q : List Message} (h : s.Moved q) (hm : Moves s l s') : s'.Moved q := by
  have hother : ∀ t, s.carrier = some t → t ≠ .main := by
    rintro t hcarrier rfl
    exact h.offMain hcarrier
  cases hm with
  | construct hwin => exact absurd hwin h.constructed
  | @post t m =>
    refine ⟨h.constructed, h.window, h.offMain, ?_⟩
    show q <+: if Thread.main = t then s.queues t ++ [m] else s.queues .main
    split
    · next heq =>
      rw [← heq]
      exact h.unread.trans (List.prefix_append _ _)
    · exact h.unread
  | peekQuit hcarrier | peekSome hcarrier | dispatch hcarrier =>
    obtain ⟨hc, hw, ho, hu⟩ := moved_setQueue h (hother _ hcarrier) _
    exact ⟨hc, hw, ho, hu⟩
  | enqueued | broken => exact moved_of_same h (sameThreads_push _ _)
  | throws | rethrow => exact moved_of_same h sameThreads_unwind
  | suspend | publish => exact ⟨h.constructed, h.window, nofun, h.unread⟩
  | wake => exact ⟨h.constructed, h.window, nofun, h.unread⟩
  | enterGet | leaveGet => exact ⟨nofun, h.window, h.offMain, h.unread⟩
  | peekNone | ready | unwrap | reply | checked | abort | startSync | endSync | start | call
  | complete => exact ⟨h.constructed, h.window, h.offMain, h.unread⟩

/-- A suspension takes `Loop` off the main thread. -/
theorem moved_of_suspends (hrun : ∃ tr, Run Step State.init tr s) (hs : Suspends s l)
    (hm : Moves s l s') : s'.Moved (s'.queues .main) := by
  obtain ⟨tr, hrun⟩ := hrun
  obtain ⟨rfl, k, lv, i, t, hpoint, ht, hopen⟩ := hs
  have hlocated := hrun.inv_all located_init fun hi hs => located_moves hi hs.moves
  cases hm with
  | suspend hcarrier =>
    obtain ⟨hwin, hwindow⟩ := constructed_of_carrier hlocated hcarrier
    exact ⟨hwin, hwindow, nofun, List.prefix_rfl⟩
  | ready _ hpoint' ht' hready =>
    rw [hpoint, Point.await.injEq] at hpoint'
    obtain ⟨rfl, rfl⟩ := hpoint'
    rw [ht] at ht'
    cases ht'
    rcases no_assert_done hrun hpoint ht with hidle | hdone
    · exact absurd hidle hready
    · exact absurd hdone hopen

end ThreadAffinityLemmas

open ThreadAffinityLemmas

/-- After an await that suspends `Loop`, no message at the thread of the window is taken: those that
were there stay at the head of its queue. -/
theorem window_messages_unread {tr pre post : List (State × Label × State)} {s : State}
    {t : State × Label × State} (h : Run Step State.init tr s) (htr : tr = pre ++ t :: post)
    (ht : Suspends t.1 t.2.1) :
    (∀ u ∈ post, u.1.Moved (t.2.2.queues .main)) ∧ s.Moved (t.2.2.queues .main) := by
  have hmem : t ∈ tr := by
    rw [htr]
    exact List.mem_append_right _ List.mem_cons_self
  obtain ⟨before, _, hbefore⟩ := h.reach_of_mem hmem
  have hmoved := moved_of_suspends ⟨before, hbefore⟩ ht (h.step_of_mem hmem).moves
  exact h.sticky (Q := State.Moved _) (fun hq hs => moved_moves hq hs.moves) htr hmoved

/-- A run pumps messages only on the thread of the window exactly when no await that suspends `Loop`
comes before a later pump. -/
theorem pump_affinity_iff {tr : List (State × Label × State)} {s : State}
    (h : Run Step State.init tr s) :
    (∀ t ∈ tr, PumpsOnWindow t.1 t.2.1) ↔
      ∀ pre t post, tr = pre ++ t :: post → Suspends t.1 t.2.1 →
        ∀ u ∈ post, u.2.1.pumps = false := by
  constructor
  · intro hpumps pre t post htr ht u hu
    have hmoved := (window_messages_unread h htr ht).1 u hu
    rw [Bool.eq_false_iff]
    intro hpump
    have huTr : u ∈ tr := by
      rw [htr]
      exact List.mem_append_right _ (List.mem_cons_of_mem _ hu)
    have hcarrier := hpumps u huTr hpump
    rw [hmoved.window] at hcarrier
    exact hmoved.offMain hcarrier
  · intro hquiet t ht hpump
    obtain ⟨pre, ⟨post, hpre⟩, hreach⟩ := h.reach_of_mem ht
    rw [List.append_assoc] at hpre
    -- No step before the pump suspends `Loop`.
    have hnever : Meets (fun s l => ¬ Suspends s l) pre := by
      intro u hu hsuspends
      obtain ⟨a, b, rfl⟩ := List.append_of_mem hu
      have hfalse := hquiet a u (b ++ ([t] ++ post)) (by simp [← hpre]) hsuspends t (by simp)
      rw [hpump] at hfalse
      cases hfalse
    have hunmoved := hreach.inv unmoved_init (fun hi hl hs => unmoved_moves hi hl hs.moves) hnever
    obtain ⟨c, hcarrier⟩ := carrier_of_pumps hpump (h.step_of_mem ht).moves
    rw [hcarrier, (constructed_of_carrier hunmoved.located hcarrier).2,
      hunmoved.onMain c hcarrier]

/-- In a frame whose tasks are complete before they are awaited, both pumps are on the window's
thread, and no await suspends `Loop` between them. -/
theorem pump_affinity_prompt :
    ∃ tr s, Run Step State.init tr s ∧ tr.map (·.2.1) = oneFrame ∧
      (∀ t ∈ tr, PumpsOnWindow t.1 t.2.1) ∧
      ∀ pre t post, tr = pre ++ t :: post → Suspends t.1 t.2.1 →
        ∀ u ∈ post, u.2.1.pumps = false := by
  obtain ⟨tr, s, hrun, hlabels, hview⟩ := exists_run step (R := Step) id State.init oneFrame
    (fun r => r.1.all fun t => decide (PumpsOnWindow t.1 t.2.1)) (v := true) (by decide +kernel)
  have hpumps := meets_of_all hview
  exact ⟨tr, s, hrun, hlabels, hpumps, (pump_affinity_iff hrun).mp hpumps⟩

/-- A frame whose game task completes after `Loop` has suspended on it. The worker 0 resumes `Loop`
and carries it into the next frame. -/
def lateFrame : List Label :=
  [.construct, .peek none, .submit .enqueued, .submit .enqueued, .start 0 0, .start 1 1, .await,
   .call 1 1 (.returned (.updated true)), .complete 1 1, .call 0 0 (.returned .void),
   .complete 0 0, .resume, .await, .resume, .await, .resume, .await, .resume, .check .abort,
   .startSync, .endSync, .post .main .quit, .peek none]

/-- The second frame is pumped on a worker, and the `WM_QUIT` at the window's thread is not seen. -/
theorem pump_on_worker :
    ∃ tr s, Run Step State.init tr s ∧ (∃ t ∈ tr, ¬ PumpsOnWindow t.1 t.2.1) ∧
      s.queues .main = [.quit] ∧ s.point = .submit .game := by
  obtain ⟨tr, s, hrun, -, hview⟩ := exists_run step (R := Step) id State.init lateFrame
    (fun r => (r.1.any fun t => decide (¬ PumpsOnWindow t.1 t.2.1), r.2.queues .main, r.2.point))
    (v := (true, [.quit], .submit .game)) (by decide +kernel)
  rw [Prod.mk.injEq, Prod.mk.injEq] at hview
  obtain ⟨hany, hqueue, hpoint⟩ := hview
  obtain ⟨t, ht, hpump⟩ := List.any_eq_true.mp hany
  exact ⟨tr, s, hrun, ⟨t, ht, of_decide_eq_true hpump⟩, hqueue, hpoint⟩

end FlavoEngine.Engine

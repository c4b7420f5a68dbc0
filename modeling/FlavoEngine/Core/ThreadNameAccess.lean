import FlavoEngine.Core.ThreadName
import FlavoEngine.Lib.Run
import Mathlib.Data.Set.Subsingleton

/-!
# Overlapping calls of the thread names

The calls of `ThreadNameManager` (`kernel/source/core/parallel/thread_name.cpp`) take time: each has
a begin step and an end step. They come from the two callbacks of `wh/source/main.cpp` and from
every log call (`kernel/source/core/logger/logger.cpp`).

* A thread makes one call at a time, and what a call does to the table is seen at its end.
* `WinMain` registers the main thread before it creates the runtime, so no thread is created
  earlier. Nothing else orders the calls of different threads: `LogInternal` takes `m_Lock` after
  `GetName` has returned, and a thread runs its callbacks without any lock.

Results:
1. `exclusive_iff`: no modification ever overlaps with another call exactly when the program creates
   at most one thread besides the main one, and none if the main thread logs.
2. `access_projects`: with the calls taken as one step each, a run is a run of `ThreadName`.
-/

namespace FlavoEngine.Core

open FlavoEngine.Lib

/-- A call of `ThreadNameManager`. -/
inductive NameCall where
  | registerThread
  | unregisterThread
  | getName
deriving DecidableEq

/-- The call changes `m_Names`. -/
def NameCall.modifies : NameCall → Bool
  | registerThread | unregisterThread => true
  | getName => false

/-- Two calls of which one changes `m_Names`. -/
def NameCall.Conflict (c c' : NameCall) : Prop :=
  c.modifies = true ∨ c'.modifies = true

structure AccessState (H Id : Type) where
  base : ThreadState H Id
  /-- The call that a thread is in. -/
  inCall : H → Option NameCall

inductive AccessLabel (H Id : Type) where
  /-- A thread begins a call. -/
  | begin (h : H) (c : NameCall)
  /-- A thread takes a step, which ends its call if it is one that the call stands for. -/
  | take (l : ThreadLabel H Id)

/-- The step is one of a program that creates no threads but those of `created`, and in which no
threads but those of `logging` log. -/
def AccessLabel.Within {H Id : Type} (created logging : Set H) : AccessLabel H Id → Prop
  | begin h .getName => h ∈ logging
  | take (.create h _ _) => h ∈ created
  | _ => True

/-- The thread that takes a step. -/
def ThreadLabel.thread {H Id : Type} : ThreadLabel H Id → H
  | create h _ _ | started h _ | ended h | exit h | getName h | makeRecord h _ _ _ => h

/-- The call that ends with a step. -/
def ThreadLabel.call {H Id : Type} : ThreadLabel H Id → Option NameCall
  | started _ _ => some .registerThread
  | ended _ => some .unregisterThread
  | getName _ => some .getName
  | create _ _ _ | exit _ | makeRecord _ _ _ _ => none

namespace AccessState

variable {H Id : Type} [DecidableEq H] [DecidableEq Id]

/-- `WinMain` has been entered. -/
def start (main : H) (id : Id) : AccessState H Id where
  base := { (ThreadState.empty : ThreadState H Id) with liveIds := [id] }.setPhase main
    (.created id mainThreadName)
  inCall := fun _ => none

/-- Whether a thread is at a place where it makes the call: in its start callback, in its end
callback, or in a log call. -/
def makes (main : H) (s : ThreadState H Id) (h : H) : NameCall → Bool
  | .registerThread =>
    match s.phase h, s.view h with
    | .created _ _, none => true
    | _, _ => false
  | .unregisterThread =>
    match s.phase h, s.view h with
    | .running _ _, none => h ≠ main
    | _, _ => false
  | .getName => (s.phase h).id?.isSome && (s.view h).isNone

/-- The main thread has been registered. -/
def mainRegistered (main : H) (s : ThreadState H Id) : Bool :=
  match s.phase main with
  | .running _ _ => true
  | _ => false

/-- Whether a thread can be created: the runtime has been. -/
def mayTake (main : H) (s : ThreadState H Id) : ThreadLabel H Id → Bool
  | .create _ _ _ => mainRegistered main s
  | _ => true

/-- One step of a thread; `none` when it cannot be taken. -/
def step (main : H) (s : AccessState H Id) : AccessLabel H Id → Option (AccessState H Id)
  | .begin h c =>
    if s.inCall h = none ∧ makes main s.base h c = true then
      some { s with inCall := Function.update s.inCall h (some c) }
    else none
  | .take l =>
    if s.inCall l.thread = l.call ∧ mayTake main s.base l = true then
      (s.base.step main l).map fun base =>
        { base, inCall := Function.update s.inCall l.thread none }
    else none

/-- The threads take steps in any order. -/
def Steps (main : H) (s : AccessState H Id) (l : AccessLabel H Id) (s' : AccessState H Id) : Prop :=
  s.step main l = some s'

/-- A program that creates no threads but those of `created`, and in which no threads but those of
`logging` log, can come into the state. -/
def Reachable (main : H) (id : Id) (created logging : Set H) (s : AccessState H Id) : Prop :=
  ∃ tr, Run (Steps main) (start main id) tr s ∧ Meets (fun _ l => l.Within created logging) tr

/-- No two threads are in calls of which one changes the table. -/
def Exclusive (s : AccessState H Id) : Prop :=
  ∀ h h' c c', h ≠ h' → s.inCall h = some c → s.inCall h' = some c' → ¬ c.Conflict c'

end AccessState

open AccessState

namespace ThreadNameAccessLemmas

variable {H Id : Type} [DecidableEq H] [DecidableEq Id] {main : H} {s s' : AccessState H Id}
variable {l : AccessLabel H Id}

theorem reachable_snoc {id : Id} {created logging : Set H}
    (h : Reachable main id created logging s) (hstep : Steps main s l s')
    (hl : l.Within created logging) : Reachable main id created logging s' := by
  obtain ⟨tr, hrun, hmeets⟩ := h
  exact ⟨_, .snoc hrun hstep, Run.meets_snoc.mpr ⟨hmeets, hl⟩⟩

/-- What a step does to the calls and to the threads. -/
theorem step_cases (hstep : Steps main s l s') :
    (∃ h c, l = .begin h c ∧ s.inCall h = none ∧ makes main s.base h c = true ∧
        s' = { s with inCall := Function.update s.inCall h (some c) }) ∨
      ∃ tl, l = .take tl ∧ s.inCall tl.thread = tl.call ∧ mayTake main s.base tl = true ∧
        s.base.step main tl = some s'.base ∧
        s'.inCall = Function.update s.inCall tl.thread none := by
  cases l with
  | begin h c =>
    simp only [Steps, AccessState.step] at hstep
    split at hstep
    · next hmay =>
      cases hstep
      exact .inl ⟨h, c, rfl, hmay.1, hmay.2, rfl⟩
    · cases hstep
  | take tl =>
    simp only [Steps, AccessState.step] at hstep
    split at hstep
    · next hmay =>
      obtain ⟨base, hbase, rfl⟩ := Option.map_eq_some_iff.mp hstep
      exact .inr ⟨tl, rfl, hmay.1, hmay.2, hbase, rfl⟩
    · cases hstep

/-! What the steps of the threads do to the phases. -/

/-- A thread is created, or a thread that exists moves on; the main thread moves on only before it
is registered. -/
theorem phase_step {t t' : ThreadState H Id} {tl : ThreadLabel H Id}
    (hstep : ThreadState.Steps main t tl t') :
    (∃ h id name, tl = .create h id name ∧ t.phase h = .notStarted ∧
        t'.phase = Function.update t.phase h (.created id name)) ∨
      (∃ p, t.phase tl.thread ≠ .notStarted ∧ (tl.thread = main → mainRegistered main t = false) ∧
        t'.phase = Function.update t.phase tl.thread p) ∨
      t'.phase = t.phase := by
  cases tl with
  | create h id name =>
    simp only [ThreadState.Steps, ThreadState.step] at hstep
    split at hstep
    · next hphase =>
      split at hstep
      · cases hstep
      · cases hstep
        exact .inl ⟨h, id, name, rfl, hphase, rfl⟩
    · cases hstep
  | started h buf =>
    simp only [ThreadState.Steps, ThreadState.step] at hstep
    split at hstep
    · next id name hphase _ =>
      split at hstep
      · cases hstep
      · cases hstep
        refine .inr (.inl ⟨.running id name, ?_, ?_, rfl⟩)
        · simp [ThreadLabel.thread, hphase]
        · rintro rfl
          simp only [mainRegistered, ThreadLabel.thread, hphase]
    · cases hstep
  | ended h =>
    simp only [ThreadState.Steps, ThreadState.step] at hstep
    split at hstep
    · next id name hphase _ =>
      split at hstep
      · cases hstep
      · next hmain =>
        cases hstep
        refine .inr (.inl ⟨.ended id name, ?_, fun h => absurd h hmain, rfl⟩)
        simp [ThreadLabel.thread, hphase]
    · cases hstep
  | exit h =>
    simp only [ThreadState.Steps, ThreadState.step] at hstep
    split at hstep
    · next hphase _ =>
      cases hstep
      refine .inr (.inl ⟨.exited, ?_, ?_, rfl⟩)
      · simp [ThreadLabel.thread, hphase]
      · rintro rfl
        simp only [mainRegistered, ThreadLabel.thread, hphase]
    · next hphase _ =>
      cases hstep
      refine .inr (.inl ⟨.exited, ?_, ?_, rfl⟩)
      · simp [ThreadLabel.thread, hphase]
      · rintro rfl
        simp only [mainRegistered, ThreadLabel.thread, hphase]
    · cases hstep
  | getName h =>
    simp only [ThreadState.Steps, ThreadState.step] at hstep
    split at hstep
    · cases hstep
      exact .inr (.inr rfl)
    · cases hstep
  | makeRecord h dateTime type message =>
    simp only [ThreadState.Steps, ThreadState.step] at hstep
    split at hstep
    · cases hstep
      exact .inr (.inr rfl)
    · cases hstep

/-- The calls in progress of a program that creates the threads of `created`, when those of
`logging` log. -/
structure CallsOk (created logging : Set H) (main : H) (s : AccessState H Id) : Prop where
  /-- Threads are created after `WinMain` has registered the main one. -/
  others : ∀ h, h ≠ main → s.base.phase h ≠ .notStarted →
    h ∈ created ∧ mainRegistered main s.base = true
  exist : ∀ h c, s.inCall h = some c → s.base.phase h ≠ .notStarted
  ofMain : ∀ c, s.inCall main = some c →
    (c = .getName ∧ main ∈ logging) ∨ mainRegistered main s.base = false

variable {created logging : Set H}

omit [DecidableEq Id] in
theorem callsOk_start (id : Id) : CallsOk created logging main (start main id) where
  others _ hne hphase := absurd (Function.update_of_ne hne _ _) hphase
  exist _ _ hcall := nomatch hcall
  ofMain _ hcall := nomatch hcall

omit [DecidableEq Id] in
/-- A thread that makes a call exists. -/
theorem exists_of_makes {t : ThreadState H Id} {h : H} {c : NameCall}
    (hmakes : makes main t h c = true) : t.phase h ≠ .notStarted := by
  intro hphase
  cases c <;> simp [makes, hphase, ThreadPhase.id?] at hmakes

omit [DecidableEq Id] in
/-- The main thread logs, or registers itself. -/
theorem main_makes {t : ThreadState H Id} {c : NameCall} (hmakes : makes main t main c = true) :
    c = .getName ∨ mainRegistered main t = false := by
  cases c with
  | registerThread =>
    simp only [makes] at hmakes
    split at hmakes
    · next hphase _ => exact .inr (by simp only [mainRegistered, hphase])
    · cases hmakes
  | unregisterThread =>
    simp only [makes] at hmakes
    split at hmakes
    · exact absurd rfl (of_decide_eq_true hmakes)
    · cases hmakes
  | getName => exact .inl rfl

omit [DecidableEq Id] in
theorem callsOk_begin (hs : CallsOk created logging main s) {h : H} {c : NameCall}
    (hmakes : makes main s.base h c = true)
    (hlog : (AccessLabel.begin h c : AccessLabel H Id).Within created logging) :
    CallsOk created logging main { s with inCall := Function.update s.inCall h (some c) } := by
  refine { hs with exist := ?_, ofMain := ?_ }
  · intro u d hu
    rcases eq_or_ne u h with rfl | hne
    · exact exists_of_makes hmakes
    · exact hs.exist u d ((Function.update_of_ne hne _ _).symm.trans hu)
  · intro d hd
    rcases eq_or_ne main h with rfl | hne
    · obtain rfl : c = d := Option.some.inj ((Function.update_self main _ s.inCall).symm.trans hd)
      rcases main_makes hmakes with rfl | hbefore
      · exact .inl ⟨rfl, hlog⟩
      · exact .inr hbefore
    · exact hs.ofMain d ((Function.update_of_ne hne _ _).symm.trans hd)

omit [DecidableEq H] [DecidableEq Id] in
theorem mainRegistered_congr {t t' : ThreadState H Id} (h : t'.phase main = t.phase main) :
    mainRegistered main t' = mainRegistered main t := by
  simp only [mainRegistered, h]

theorem callsOk_take (hmain : main ∉ created) (hs : CallsOk created logging main s)
    {tl : ThreadLabel H Id} (hstep : Steps main s (.take tl) s')
    (hcreate : (AccessLabel.take tl : AccessLabel H Id).Within created logging) :
    CallsOk created logging main s' := by
  obtain ⟨_, _, hl, -⟩ | ⟨_, hl, -, hmay, hbase, hcalls⟩ := step_cases hstep
  · cases hl
  cases hl
  have hcall : ∀ {u c}, s'.inCall u = some c → u ≠ tl.thread ∧ s.inCall u = some c := by
    intro u c hu
    rw [hcalls] at hu
    rcases eq_or_ne u tl.thread with rfl | hne
    · rw [Function.update_self] at hu
      cases hu
    · exact ⟨hne, by rwa [Function.update_of_ne hne] at hu⟩
  obtain ⟨h, id, name, rfl, -, hafter⟩ | ⟨p, hexists, hearly, hafter⟩ | hafter := phase_step hbase
  · -- a thread is created, which the main one is not
    have hne : main ≠ h := by
      rintro rfl
      exact hmain hcreate
    have hreg : mainRegistered main s'.base = mainRegistered main s.base :=
      mainRegistered_congr (by rw [hafter, Function.update_of_ne hne])
    constructor
    case others =>
      intro u hu hstarted
      rw [hreg]
      rcases eq_or_ne u h with rfl | huh
      · exact ⟨hcreate, hmay⟩
      · rw [hafter, Function.update_of_ne huh] at hstarted
        exact hs.others u hu hstarted
    case exist =>
      intro u c hu
      obtain ⟨huh, hold⟩ := hcall hu
      rw [hafter, Function.update_of_ne (show u ≠ h from huh)]
      exact hs.exist u c hold
    case ofMain =>
      intro c hc
      rw [hreg]
      exact hs.ofMain c (hcall hc).2
  · -- a thread that exists moves on, and is in no call afterwards
    have hreg : tl.thread ≠ main → mainRegistered main s'.base = mainRegistered main s.base :=
      fun hne => mainRegistered_congr (by rw [hafter, Function.update_of_ne hne.symm])
    constructor
    case others =>
      intro u hu hstarted
      have hold : s.base.phase u ≠ .notStarted := by
        rcases eq_or_ne u tl.thread with rfl | hne
        · exact hexists
        · rwa [hafter, Function.update_of_ne hne] at hstarted
      obtain ⟨hu', hregistered⟩ := hs.others u hu hold
      have hne : tl.thread ≠ main := fun heq => nomatch (hearly heq).symm.trans hregistered
      exact ⟨hu', (hreg hne).trans hregistered⟩
    case exist =>
      intro u c hu
      obtain ⟨hne, hold⟩ := hcall hu
      rw [hafter, Function.update_of_ne hne]
      exact hs.exist u c hold
    case ofMain =>
      intro c hc
      obtain ⟨hne, hold⟩ := hcall hc
      rw [hreg hne.symm]
      exact hs.ofMain c hold
  · have hreg : mainRegistered main s'.base = mainRegistered main s.base :=
      mainRegistered_congr (by rw [hafter])
    constructor
    case others =>
      intro u hu hstarted
      rw [hreg]
      exact hs.others u hu (by rwa [hafter] at hstarted)
    case exist =>
      intro u c hu
      rw [hafter]
      exact hs.exist u c (hcall hu).2
    case ofMain =>
      intro c hc
      rw [hreg]
      exact hs.ofMain c (hcall hc).2

theorem callsOk_step (hmain : main ∉ created) (hs : CallsOk created logging main s)
    (hl : l.Within created logging) (hstep : Steps main s l s') :
    CallsOk created logging main s' := by
  cases l with
  | begin h c =>
    obtain ⟨_, _, hl', -, hmakes, rfl⟩ | ⟨_, hl', -⟩ := step_cases hstep
    · cases hl'
      exact callsOk_begin hs hmakes hl
    · cases hl'
  | take tl => exact callsOk_take hmain hs hstep hl

omit [DecidableEq H] [DecidableEq Id] in
/-- With at most one thread besides the main one, and a main thread that logs only when there is
none. -/
theorem exclusive_of_callsOk (hone : created.Subsingleton) (hlog : main ∈ logging → created = ∅)
    (hs : CallsOk created logging main s) : s.Exclusive := by
  -- a call of another thread excludes one of the main thread
  have hother : ∀ {h c}, h ≠ main → s.inCall h = some c → h ∈ created ∧ s.inCall main = none := by
    intro h c hne hcall
    obtain ⟨hcreated, hreg⟩ := hs.others h hne (hs.exist h c hcall)
    refine ⟨hcreated, Option.eq_none_iff_forall_not_mem.mpr fun d hd => ?_⟩
    rcases hs.ofMain d hd with ⟨-, hmainLogs⟩ | hbefore
    · rw [hlog hmainLogs] at hcreated
      exact hcreated
    · exact nomatch hbefore.symm.trans hreg
  intro h h' c c' hne hc hc'
  rcases eq_or_ne h main with rfl | hh
  · exact nomatch (hother hne.symm hc').2.symm.trans hc
  · rcases eq_or_ne h' main with rfl | hh'
    · exact nomatch (hother hh hc).2.symm.trans hc'
    · exact absurd (hone (hother hh hc).1 (hother hh' hc').1) hne

theorem callsOk_reachable (hmain : main ∉ created) {id : Id}
    (h : Reachable main id created logging s) : CallsOk created logging main s := by
  obtain ⟨tr, hrun, hmeets⟩ := h
  exact hrun.inv (callsOk_start id) (fun hs hl hstep => callsOk_step hmain hs hl hstep) hmeets

/-! Runs in which calls overlap. -/

/-- `WinMain` has registered the main thread. -/
def registered (main : H) (id : Id) : AccessState H Id where
  base := ThreadState.init main id 0
  inCall := fun _ => none

/-- A thread has been created. -/
def withThread (s : AccessState H Id) (h : H) (id : Id) : AccessState H Id :=
  { s with base := { s.base with liveIds := id :: s.base.liveIds }.setPhase h (.created id []) }

theorem begin_step {h : H} {c : NameCall} (hidle : s.inCall h = none)
    (hmakes : makes main s.base h c = true) :
    Steps main s (.begin h c) { s with inCall := Function.update s.inCall h (some c) } :=
  if_pos ⟨hidle, hmakes⟩

theorem create_step {h : H} {a : Id} (hidle : s.inCall h = none)
    (hreg : mainRegistered main s.base = true) (hphase : s.base.phase h = .notStarted)
    (hid : a ∉ s.base.liveIds) : Steps main s (.take (.create h a [])) (withThread s h a) := by
  have hbase : s.base.step main (.create h a []) = some (withThread s h a).base := by
    simp only [ThreadState.step, hphase, if_neg hid]
    rfl
  have hcalls : Function.update s.inCall h none = s.inCall := by
    rw [← hidle, Function.update_eq_self]
  simp only [Steps, AccessState.step, ThreadLabel.thread, ThreadLabel.call, mayTake, hidle, hreg,
    and_self, if_true, hbase, Option.map_some, hcalls]
  rfl

theorem reachable_registered (id : Id) :
    Reachable main id created logging (registered main id) := by
  have hphase : (start main id).base.phase main = .created id mainThreadName :=
    Function.update_self ..
  have hbegin : Steps main (start main id) (.begin main .registerThread) _ :=
    begin_step rfl (by simp only [makes, hphase]; rfl)
  have hregister : Steps main
      { start main id with
        inCall := Function.update (start main id).inCall main (some .registerThread) }
      (.take (.started main 0)) (registered main id) := by
    have hbase : (start main id).base.step main (.started main 0) =
        some (ThreadState.init main id 0) := by
      simp only [ThreadState.step, hphase]
      simp [start, ThreadState.init, ThreadState.setPhase, ThreadState.empty]
    have hcalls : Function.update
        (Function.update (start main id).inCall main (some .registerThread)) main none =
        fun _ => none := by
      rw [Function.update_idem]
      exact Function.update_eq_self main _
    simp only [Steps, AccessState.step, ThreadLabel.thread, ThreadLabel.call, mayTake,
      Function.update_self, and_self, if_true, hbase, Option.map_some, hcalls]
    rfl
  have hstart : Reachable main id created logging (start main id) :=
    ⟨[], .nil, fun _ h => absurd h List.not_mem_nil⟩
  exact reachable_snoc (reachable_snoc hstart hbegin trivial) hregister trivial

/-- Two threads that are about to make calls of which one changes the table can both begin. -/
theorem exists_overlap {id : Id} (hs : Reachable main id created logging s)
    (hidle : s.inCall = fun _ => none) {h h' : H} (hne : h ≠ h') (c c' : NameCall)
    (hmakes : makes main s.base h c = true) (hmakes' : makes main s.base h' c' = true)
    (hlog : (AccessLabel.begin h c : AccessLabel H Id).Within created logging)
    (hlog' : (AccessLabel.begin h' c' : AccessLabel H Id).Within created logging)
    (hconflict : c.Conflict c') :
    ∃ s', Reachable main id created logging s' ∧ ¬ s'.Exclusive := by
  have hbegin := begin_step (congrFun hidle h) hmakes
  have hcall' : Function.update s.inCall h (some c) h' = none := by
    rw [Function.update_of_ne hne.symm, hidle]
  have hbegin' := begin_step (s := { s with inCall := Function.update s.inCall h (some c) })
    hcall' hmakes'
  refine ⟨_, reachable_snoc (reachable_snoc hs hbegin hlog) hbegin' hlog', fun hexcl => ?_⟩
  refine hexcl h h' c c' hne ?_ (Function.update_self ..) hconflict
  exact (Function.update_of_ne hne _ _).trans (Function.update_self ..)

omit [DecidableEq Id] in
/-- A thread that has been created runs its start callback. -/
theorem makes_created {t : ThreadState H Id} {h : H} (a : Id) (name : Text)
    (hphase : t.phase h = .created a name) (hview : t.view h = none) :
    makes main t h .registerThread = true := by
  simp only [makes, hphase, hview]

omit [DecidableEq Id] in
/-- A registered thread logs. -/
theorem makes_running {t : ThreadState H Id} {h : H} (a : Id) (name : Text)
    (hphase : t.phase h = .running a name) (hview : t.view h = none) :
    makes main t h .getName = true := by
  simp only [makes, hphase, hview]
  rfl

omit [DecidableEq Id] in
theorem phase_withThread (s : AccessState H Id) (h : H) (a : Id) :
    (withThread s h a).base.phase = Function.update s.base.phase h (.created a []) :=
  rfl

theorem phase_registered (main : H) (id : Id) : (registered main id).base.phase =
    Function.update (fun _ => .notStarted) main (.running id mainThreadName) :=
  rfl

/-- A thread is created while the main one makes no call. -/
theorem reachable_one {id a : Id} (ha : a ≠ id) {w : H} (hw : w ∈ created) (hne : w ≠ main) :
    Reachable main id created logging (withThread (registered main id) w a) := by
  refine reachable_snoc (reachable_registered id) (create_step rfl ?_ ?_ ?_) hw
  · simp only [mainRegistered, phase_registered, Function.update_self]
  · rw [phase_registered, Function.update_of_ne hne]
  · exact fun hmem => ha (List.mem_singleton.mp hmem)

/-- The main thread looks its name up while the other one registers itself. -/
theorem overlap_main {id a : Id} (ha : a ≠ id) {w : H} (hw : w ∈ created) (hne : w ≠ main)
    (hlog : main ∈ logging) : ∃ s, Reachable main id created logging s ∧ ¬ s.Exclusive := by
  refine exists_overlap (reachable_one ha hw hne) rfl hne.symm .getName .registerThread ?_ ?_ hlog
    trivial (.inr rfl)
  · refine makes_running id mainThreadName ?_ rfl
    rw [phase_withThread, phase_registered, Function.update_of_ne hne.symm, Function.update_self]
  · exact makes_created _ _ (Function.update_self ..) rfl

/-- Two threads register themselves. -/
theorem overlap_others {id a b : Id} (ha : a ≠ id) (hb : b ≠ id) (hab : a ≠ b) {w w' : H}
    (hw : w ∈ created) (hw' : w' ∈ created) (hne : w ≠ main) (hne' : w' ≠ main)
    (hdiff : w ≠ w') : ∃ s, Reachable main id created logging s ∧ ¬ s.Exclusive := by
  have hboth : Reachable main id created logging
      (withThread (withThread (registered main id) w a) w' b) := by
    refine reachable_snoc (reachable_one ha hw hne) (create_step rfl ?_ ?_ ?_) hw'
    · simp only [mainRegistered, phase_withThread, phase_registered,
        Function.update_of_ne hne.symm, Function.update_self]
    · rw [phase_withThread, phase_registered, Function.update_of_ne hdiff.symm,
        Function.update_of_ne hne']
    · rintro (_ | ⟨_, hmem⟩)
      · exact hab rfl
      · exact hb (List.mem_singleton.mp hmem)
  refine exists_overlap hboth rfl hdiff .registerThread .registerThread ?_ ?_ trivial trivial
    (.inl rfl)
  · refine makes_created a [] ?_ rfl
    rw [phase_withThread, phase_withThread, Function.update_of_ne hdiff, Function.update_self]
  · exact makes_created _ _ (Function.update_self ..) rfl

end ThreadNameAccessLemmas

open ThreadNameAccessLemmas

variable {H Id : Type} [DecidableEq H] [DecidableEq Id]

/-- In the states that a program can come into the calls that change the table overlap with no other
call, exactly when it creates at most one thread, and none if the main thread logs. -/
theorem exclusive_iff (main : H) (id : Id) {created logging : Set H} (hmain : main ∉ created)
    (hids : ∃ a b : Id, a ≠ id ∧ b ≠ id ∧ a ≠ b) :
    (∀ s, Reachable main id created logging s → s.Exclusive) ↔
      created.Subsingleton ∧ (main ∈ logging → created = ∅) := by
  constructor
  · intro hall
    obtain ⟨a, b, ha, hb, hab⟩ := hids
    have hne : ∀ {w}, w ∈ created → w ≠ main := by
      rintro w hw rfl
      exact hmain hw
    constructor
    · intro w hw w' hw'
      refine Classical.byContradiction fun hdiff => ?_
      obtain ⟨s, hs, hover⟩ : ∃ s, Reachable main id created logging s ∧ ¬ s.Exclusive :=
        overlap_others ha hb hab hw hw' (hne hw) (hne hw') hdiff
      exact hover (hall s hs)
    · intro hlog
      refine Set.eq_empty_iff_forall_notMem.mpr fun w hw => ?_
      obtain ⟨s, hs, hover⟩ := overlap_main ha hw (hne hw) hlog
      exact hover (hall s hs)
  · rintro ⟨hone, hlog⟩ s hs
    exact exclusive_of_callsOk hone hlog (callsOk_reachable hmain hs)

/-- One worker that logs beside a silent main thread, and two workers that are silent. -/
theorem exclusive_iff_workers :
    (∀ s, Reachable (0 : Nat) (3 : Nat) {1} {1} s → s.Exclusive) ∧
      ¬ ∀ s, Reachable (0 : Nat) (3 : Nat) {1, 2} ∅ s → s.Exclusive := by
  have hids : ∃ a b : Nat, a ≠ 3 ∧ b ≠ 3 ∧ a ≠ b := ⟨4, 5, by decide, by decide, by decide⟩
  constructor
  · refine (exclusive_iff 0 3 (by simp) hids).mpr ⟨Set.subsingleton_singleton, fun h => ?_⟩
    exact absurd h (by simp)
  · intro hall
    have hone := ((exclusive_iff 0 3 (by simp) hids).mp hall).1
    exact absurd (hone (x := 1) (by simp) (y := 2) (by simp)) (by decide)

/-- `WinMain` registers the main thread; a worker is created and begins its start callback while the
main thread looks its name up for a log record. -/
def overlapSchedule : List (AccessLabel Nat Nat) :=
  [.begin 0 .registerThread, .take (.started 0 40), .take (.create 1 7 ['w']), .begin 0 .getName,
    .begin 1 .registerThread]

/-- The look-up of the main thread overlaps with the registration of the worker. -/
theorem register_overlaps_getName :
    ∃ tr s, Run (Steps 0) (start (0 : Nat) (3 : Nat)) tr s ∧ s.inCall 0 = some .getName ∧
      s.inCall 1 = some .registerThread ∧ ¬ s.Exclusive := by
  obtain ⟨tr, s, hrun, -, hcalls⟩ := exists_run (AccessState.step 0) (R := Steps 0) id
    (start (0 : Nat) (3 : Nat)) overlapSchedule (fun r => (r.2.inCall 0, r.2.inCall 1)) rfl
  obtain ⟨hmain, hworker⟩ := Prod.mk.inj hcalls
  exact ⟨tr, s, hrun, hmain, hworker, fun hs =>
    hs 0 1 _ _ (by decide) hmain hworker (.inr rfl)⟩

/-! ## The calls as single steps -/

/-- The steps of the threads in a run. -/
def taken (tr : List (AccessState H Id × AccessLabel H Id × AccessState H Id)) :
    List (ThreadLabel H Id) :=
  tr.filterMap fun t =>
    match t.2.1 with
    | .begin _ _ => none
    | .take l => some l

/-- Each call seen at its end, a run is one in which the calls are single steps. -/
theorem access_projects {main : H} {id : Id}
    {tr : List (AccessState H Id × AccessLabel H Id × AccessState H Id)} {s : AccessState H Id}
    (hrun : Run (Steps main) (start main id) tr s) :
    ∃ tr', Run (ThreadState.Steps main) (start main id).base tr' s.base ∧
      tr'.map (·.2.1) = taken tr := by
  induction hrun with
  | nil => exact ⟨[], .nil, rfl⟩
  | @snoc tr s s' l _ hstep ih =>
    obtain ⟨tr', hbase, hlabels⟩ := ih
    obtain ⟨h, c, rfl, -, -, rfl⟩ | ⟨tl, rfl, -, -, htake, -⟩ := step_cases hstep
    · exact ⟨tr', hbase, by simpa [taken] using hlabels⟩
    · refine ⟨tr' ++ [(s.base, tl, s'.base)], .snoc hbase htake, ?_⟩
      rw [List.map_append, hlabels]
      simp [taken]

/-- Seen so, the table is exact in every run. -/
theorem access_tableExact {main : H} {id : Id}
    {tr : List (AccessState H Id × AccessLabel H Id × AccessState H Id)} {s : AccessState H Id}
    (hrun : Run (Steps main) (start main id) tr s) : s.base.TableExact := by
  obtain ⟨tr', hbase, -⟩ := access_projects hrun
  exact ThreadNameLemmas.tableExact_of_consistent
    (hbase.inv_all (ThreadNameLemmas.consistent_main main id) ThreadNameLemmas.consistent_step)

end FlavoEngine.Core

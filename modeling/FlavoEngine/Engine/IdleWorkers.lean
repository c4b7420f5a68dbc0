import FlavoEngine.Lib.Tally
import Mathlib.Data.Fintype.Basic
import Mathlib.Data.Nat.ModEq

/-!
# The set of idle workers

`idle_worker_set` of `concurrencpp/executors/thread_pool_executor.cpp` has a flag for each worker of
the pool and a counter of the idle ones. Its calls take no lock: an atomic access is one step, and
the steps of the threads interleave.

* A pool has `n + 1` workers. The counter does not wrap.
* A caller that is no worker of the pool starts its search at a place of the thread's own, and its
  index `-1` is `none`.

Results:
1. `approx_size_exact`: the counter is the number of idle workers, up to the calls that have changed
   a flag and not yet the counter.
2. `announcements_kept`: each time a worker was announced idle, the flag still says so, or it took
   the announcement back, or exactly one search has reported it or has it in hand. Several searches
   may have the same worker in hand, each for another announcement.
3. `answer_ok`: what a search reports.
4. `idle_calls_end`: from any moment on no call waits for another thread, and each ends after a
   bounded number of steps.
-/

namespace FlavoEngine.Engine

open FlavoEngine.Lib

/-! ## Calls -/

/-- `idle_worker_set::status`. -/
inductive IdleStatus where
  | active
  | idle
deriving DecidableEq

/-- A search through the flags. -/
structure Scan (n : Nat) where
  /-- `caller_index`. -/
  caller : Option (Fin (n + 1))
  maxCount : Nat
  start : Nat
  /-- `max_waiters`. -/
  limit : Nat
  i : Nat := 0
  found : List (Fin (n + 1)) := []
deriving DecidableEq

namespace Scan

variable {n : Nat}

def index (f : Scan n) : Fin (n + 1) :=
  Fin.ofNat (n + 1) (f.start + f.i)

/-- `++i`. -/
def next (f : Scan n) : Scan n :=
  { f with i := f.i + 1 }

/-- The index is reported. -/
def push (f : Scan n) : Scan n :=
  { f with i := f.i + 1, found := f.found ++ [f.index] }

end Scan

/-- The calls of the set. -/
inductive IdleOp (n : Nat) where
  | setIdle (w : Fin (n + 1))
  | setActive (w : Fin (n + 1))
  | findIdleWorker (caller : Option (Fin (n + 1))) (hashedId : Nat)
  | findIdleWorkers (caller : Fin (n + 1)) (maxCount : Nat)

/-- Where a thread is in its call. -/
inductive IdleCall (n : Nat) where
  | none
  /-- Before the `exchange` of `set_idle`, and before its `fetch_add`. -/
  | setIdle (w : Fin (n + 1))
  | increment
  /-- Before the `exchange` of `set_active`, and before its `fetch_sub`. -/
  | setActive (w : Fin (n + 1))
  | decrement
  /-- Before the counter is read. -/
  | load (f : Scan n)
  /-- At the head of the loop, before the `exchange` of `try_acquire_flag`, before its
  `fetch_sub`. -/
  | scan (f : Scan n)
  | acquire (f : Scan n)
  | subtract (f : Scan n)
  | returned (f : Scan n)
deriving DecidableEq

/-- The call is entered. One worker is searched for as several are, with at most one in the
answer. -/
def IdleOp.enter {n : Nat} : IdleOp n → IdleCall n
  | .setIdle w => .setIdle w
  | .setActive w => .setActive w
  | .findIdleWorker (some caller) _ =>
    .load { caller := some caller, maxCount := 1, start := caller, limit := 0 }
  | .findIdleWorker none hashedId =>
    .load { caller := none, maxCount := 1, start := hashedId % (n + 1), limit := 0 }
  | .findIdleWorkers caller maxCount =>
    .load { caller := some caller, maxCount, start := caller, limit := 0 }

/-! ## Steps -/

structure IdleWorkerSet (C : Type) (n : Nat) where
  flags : Fin (n + 1) → IdleStatus
  approxSize : Int
  /-- The calls of the threads. -/
  call : C → IdleCall n

inductive IdleLabel (C : Type) (n : Nat) where
  | enter (c : C) (op : IdleOp n)
  | next (c : C)

namespace IdleWorkerSet

variable {C : Type} [DecidableEq C] {n : Nat}

/-- The constructor. The one of the pool then calls `set_idle` for each worker. -/
def create : IdleWorkerSet C n :=
  { flags := fun _ => .active, approxSize := 0, call := fun _ => .none }

def setCall (s : IdleWorkerSet C n) (c : C) (k : IdleCall n) : IdleWorkerSet C n :=
  { s with call := Function.update s.call c k }

def setFlag (s : IdleWorkerSet C n) (w : Fin (n + 1)) (st : IdleStatus) : IdleWorkerSet C n :=
  { s with flags := Function.update s.flags w st }

/-- The thread `c` goes on in its call. -/
def next (s : IdleWorkerSet C n) (c : C) : Option (IdleWorkerSet C n) :=
  match s.call c with
  | .none => none
  | .setIdle w =>
    if s.flags w = .idle then some (s.setCall c .none)
    else some ((s.setFlag w .idle).setCall c .increment)
  | .increment => some ({ s with approxSize := s.approxSize + 1 }.setCall c .none)
  | .setActive w =>
    if s.flags w = .active then some (s.setCall c .none)
    else some ((s.setFlag w .active).setCall c .decrement)
  | .decrement => some ({ s with approxSize := s.approxSize - 1 }.setCall c .none)
  | .load f =>
    if s.approxSize ≤ 0 then some (s.setCall c (.returned f))
    else some (s.setCall c (.scan { f with limit := min s.approxSize.toNat f.maxCount }))
  | .scan f =>
    if f.i < n + 1 ∧ f.found.length < f.limit then
      if some f.index = f.caller ∨ s.flags f.index = .active then some (s.setCall c (.scan f.next))
      else some (s.setCall c (.acquire f))
    else some (s.setCall c (.returned f))
  | .acquire f =>
    if s.flags f.index = .idle then some ((s.setFlag f.index .active).setCall c (.subtract f))
    -- another thread was faster
    else some (s.setCall c (.scan f.next))
  | .subtract f => some ({ s with approxSize := s.approxSize - 1 }.setCall c (.scan f.push))
  | .returned _ => some (s.setCall c .none)

def step (s : IdleWorkerSet C n) : IdleLabel C n → Option (IdleWorkerSet C n)
  | .enter c op => if s.call c = .none then some (s.setCall c op.enter) else none
  | .next c => s.next c

/-- The threads take steps in any order. -/
def Steps (s : IdleWorkerSet C n) (l : IdleLabel C n) (s' : IdleWorkerSet C n) : Prop :=
  s.step l = some s'

end IdleWorkerSet

open IdleWorkerSet

/-! ## Accounts -/

def IdleStatus.isIdle : IdleStatus → Nat
  | .idle => 1
  | .active => 0

namespace IdleCall

variable {n : Nat}

/-- The flag is set, and the counter does not yet have it. -/
def adds : IdleCall n → Nat
  | .increment => 1
  | _ => 0

/-- The flag is cleared, and the counter still has it. -/
def subtracts : IdleCall n → Nat
  | .decrement | .subtract _ => 1
  | _ => 0

/-- The search has taken the flag of `w` and not reported it yet. -/
def holds (w : Fin (n + 1)) : IdleCall n → Nat
  | .load f | .scan f | .acquire f | .returned f => f.found.count w
  | .subtract f => (f.found ++ [f.index]).count w
  | _ => 0

/-- How many steps the thread takes at most until the call is over. -/
def rank : IdleCall n → Nat
  | .none => 0
  | .setIdle _ | .setActive _ => 2
  | .increment | .decrement | .returned _ => 1
  | .load _ => 3 * n + 6
  | .scan f => 3 * (n + 1 - f.i) + 2
  | .acquire f => 3 * (n + 1 - f.i) + 1
  | .subtract f => 3 * (n + 1 - f.i)

end IdleCall

section Events

variable {C : Type} {n : Nat}

/-- The worker `w` is announced idle. -/
def announces (w : Fin (n + 1)) (s : IdleWorkerSet C n) : IdleLabel C n → Nat
  | .next c => if s.call c = .setIdle w ∧ s.flags w = .active then 1 else 0
  | .enter _ _ => 0

/-- It takes the announcement back. -/
def withdraws (w : Fin (n + 1)) (s : IdleWorkerSet C n) : IdleLabel C n → Nat
  | .next c => if s.call c = .setActive w ∧ s.flags w = .idle then 1 else 0
  | .enter _ _ => 0

/-- A search reports it. -/
def reports (w : Fin (n + 1)) (s : IdleWorkerSet C n) : IdleLabel C n → Nat
  | .next c =>
    match s.call c with
    | .returned f => f.found.count w
    | _ => 0
  | .enter _ _ => 0

/-- The thread begins a call. -/
def beginsCall [DecidableEq C] (c : C) (_ : IdleWorkerSet C n) : IdleLabel C n → Nat
  | .enter d _ => if d = c then 1 else 0
  | .next _ => 0

/-- It takes a step in its call. -/
def stepsInCall [DecidableEq C] (c : C) (_ : IdleWorkerSet C n) : IdleLabel C n → Nat
  | .next d => if d = c then 1 else 0
  | .enter _ _ => 0

end Events

/-- What a search may report: no worker twice, not the caller, and no more than asked for. -/
structure IdleAnswer {n : Nat} (caller : Option (Fin (n + 1))) (maxCount : Nat)
    (found : List (Fin (n + 1))) : Prop where
  nodup : found.Nodup
  notCaller : ∀ w ∈ found, some w ≠ caller
  length_le : found.length ≤ maxCount

instance {n : Nat} (caller : Option (Fin (n + 1))) (maxCount : Nat) (found : List (Fin (n + 1))) :
    Decidable (IdleAnswer caller maxCount found) :=
  decidable_of_iff
    (found.Nodup ∧ (∀ w ∈ found, some w ≠ caller) ∧ found.length ≤ maxCount)
    ⟨fun h => ⟨h.1, h.2.1, h.2.2⟩, fun h => ⟨h.nodup, h.notCaller, h.length_le⟩⟩

namespace IdleWorkerLemmas

variable {C : Type} [DecidableEq C] {n : Nat} {s s' : IdleWorkerSet C n} {l : IdleLabel C n}

/-! ### What a step can do -/

/-- The steps with their guards and effects. -/
inductive IdleMoves (s : IdleWorkerSet C n) : IdleLabel C n → IdleWorkerSet C n → Prop
  | enter {c : C} {op : IdleOp n} : s.call c = .none → IdleMoves s (.enter c op) (s.setCall c op.enter)
  /-- `set_idle` and `set_active` find the flag as they would have it. -/
  | unchanged {c : C} {w : Fin (n + 1)} :
      (s.call c = .setIdle w ∧ s.flags w = .idle) ∨ (s.call c = .setActive w ∧ s.flags w = .active) →
      IdleMoves s (.next c) (s.setCall c .none)
  | setIdle {c : C} {w : Fin (n + 1)} : s.call c = .setIdle w → s.flags w = .active →
      IdleMoves s (.next c) ((s.setFlag w .idle).setCall c .increment)
  | increment {c : C} : s.call c = .increment →
      IdleMoves s (.next c) ({ s with approxSize := s.approxSize + 1 }.setCall c .none)
  | setActive {c : C} {w : Fin (n + 1)} : s.call c = .setActive w → s.flags w = .idle →
      IdleMoves s (.next c) ((s.setFlag w .active).setCall c .decrement)
  | decrement {c : C} : s.call c = .decrement →
      IdleMoves s (.next c) ({ s with approxSize := s.approxSize - 1 }.setCall c .none)
  | loadNone {c : C} {f : Scan n} : s.call c = .load f →
      IdleMoves s (.next c) (s.setCall c (.returned f))
  | load {c : C} {f : Scan n} : s.call c = .load f → IdleMoves s (.next c)
      (s.setCall c (.scan { f with limit := min s.approxSize.toNat f.maxCount }))
  | skip {c : C} {f : Scan n} : s.call c = .scan f → f.i < n + 1 →
      IdleMoves s (.next c) (s.setCall c (.scan f.next))
  | found {c : C} {f : Scan n} : s.call c = .scan f → f.i < n + 1 → f.found.length < f.limit →
      some f.index ≠ f.caller → IdleMoves s (.next c) (s.setCall c (.acquire f))
  | ended {c : C} {f : Scan n} : s.call c = .scan f → IdleMoves s (.next c) (s.setCall c (.returned f))
  /-- The `exchange` came too late. -/
  | late {c : C} {f : Scan n} : s.call c = .acquire f →
      IdleMoves s (.next c) (s.setCall c (.scan f.next))
  | acquire {c : C} {f : Scan n} : s.call c = .acquire f → s.flags f.index = .idle →
      IdleMoves s (.next c) ((s.setFlag f.index .active).setCall c (.subtract f))
  | subtract {c : C} {f : Scan n} : s.call c = .subtract f →
      IdleMoves s (.next c) ({ s with approxSize := s.approxSize - 1 }.setCall c (.scan f.push))
  | leave {c : C} {f : Scan n} : s.call c = .returned f → IdleMoves s (.next c) (s.setCall c .none)

theorem status_ne_active {st : IdleStatus} (h : st ≠ .active) : st = .idle := by
  cases st with
  | active => exact absurd rfl h
  | idle => rfl

theorem status_ne_idle {st : IdleStatus} (h : st ≠ .idle) : st = .active := by
  cases st with
  | active => rfl
  | idle => exact absurd rfl h

theorem moves_next {c : C} (h : s.next c = some s') : IdleMoves s (.next c) s' := by
  unfold IdleWorkerSet.next at h
  split at h
  · cases h
  · next w hcall =>
    split at h
    · next hidle =>
      cases h
      exact .unchanged (.inl ⟨hcall, hidle⟩)
    · next hidle =>
      cases h
      exact .setIdle hcall (status_ne_idle hidle)
  · next hcall =>
    cases h
    exact .increment hcall
  · next w hcall =>
    split at h
    · next hactive =>
      cases h
      exact .unchanged (.inr ⟨hcall, hactive⟩)
    · next hactive =>
      cases h
      exact .setActive hcall (status_ne_active hactive)
  · next hcall =>
    cases h
    exact .decrement hcall
  · next f hcall =>
    split at h
    · cases h
      exact .loadNone hcall
    · cases h
      exact .load hcall
  · next f hcall =>
    split at h
    · next hgo =>
      split at h
      · cases h
        exact .skip hcall hgo.1
      · next hskip =>
        cases h
        exact .found hcall hgo.1 hgo.2 fun heq => hskip (.inl heq)
    · cases h
      exact .ended hcall
  · next f hcall =>
    split at h
    · next hidle =>
      cases h
      exact .acquire hcall hidle
    · cases h
      exact .late hcall
  · next hcall =>
    cases h
    exact .subtract hcall
  · next hcall =>
    cases h
    exact .leave hcall

theorem moves_of_steps (h : Steps s l s') : IdleMoves s l s' := by
  cases l with
  | enter c op =>
    simp only [Steps, IdleWorkerSet.step] at h
    split at h
    · next hcall =>
      cases h
      exact .enter hcall
    · cases h
  | next c => exact moves_next h

/-! ### The counter -/

section Counter

variable [Fintype C]

/-- The counter lags behind the flags by the calls that have changed one of the two. -/
def Counted (s : IdleWorkerSet C n) : Prop :=
  s.approxSize + (tally IdleCall.adds s.call : Nat) =
    (tally IdleStatus.isIdle s.flags : Nat) + (tally IdleCall.subtracts s.call : Nat)

omit [DecidableEq C] in
theorem counted_create : Counted (create : IdleWorkerSet C n) := by
  have hadds : tally IdleCall.adds (fun _ : C => (.none : IdleCall n)) = 0 := tally_const rfl
  have hidle : tally IdleStatus.isIdle (fun _ : Fin (n + 1) => .active) = 0 := tally_const rfl
  have hsubtracts : tally IdleCall.subtracts (fun _ : C => (.none : IdleCall n)) = 0 :=
    tally_const rfl
  unfold Counted create
  dsimp only
  rw [hadds, hidle, hsubtracts]
  rfl

/-- A call goes on, and what it owes to the counter changes with the counter and the flags. -/
theorem counted_of_balance (h : Counted s) {c : C} {k : IdleCall n} {a : Int}
    {flags : Fin (n + 1) → IdleStatus}
    (hbalance : a + k.adds + tally IdleStatus.isIdle s.flags + (s.call c).subtracts =
      s.approxSize + (s.call c).adds + tally IdleStatus.isIdle flags + k.subtracts) :
    Counted ({ s with flags, approxSize := a }.setCall c k) := by
  have hadds := tally_update IdleCall.adds s.call c k
  have hsubtracts := tally_update IdleCall.subtracts s.call c k
  unfold Counted at h ⊢
  show a + (tally _ (Function.update s.call c k) : Nat) =
    (tally _ flags : Nat) + (tally _ (Function.update s.call c k) : Nat)
  omega

/-- A call goes on, and owes as much as before. -/
theorem counted_setCall (h : Counted s) {c : C} {k : IdleCall n}
    (hadds : k.adds = (s.call c).adds) (hsubtracts : k.subtracts = (s.call c).subtracts) :
    Counted (s.setCall c k) :=
  counted_of_balance (a := s.approxSize) h (by rw [hadds, hsubtracts])

theorem counted_moves (h : Counted s) (hm : IdleMoves s l s') : Counted s' := by
  cases hm with
  | @enter c op hcall =>
    have hzero : op.enter.adds = 0 ∧ op.enter.subtracts = 0 := by
      cases op with
      | findIdleWorker caller => cases caller <;> exact ⟨rfl, rfl⟩
      | _ => exact ⟨rfl, rfl⟩
    exact counted_setCall h (by rw [hcall]; exact hzero.1) (by rw [hcall]; exact hzero.2)
  | unchanged hcall =>
    rcases hcall with ⟨hcall, -⟩ | ⟨hcall, -⟩
    · exact counted_setCall h (by rw [hcall]; rfl) (by rw [hcall]; rfl)
    · exact counted_setCall h (by rw [hcall]; rfl) (by rw [hcall]; rfl)
  | loadNone hcall | load hcall | skip hcall | found hcall | ended hcall | late hcall | leave hcall =>
    exact counted_setCall h (by rw [hcall]; rfl) (by rw [hcall]; rfl)
  | @setIdle c w hcall hactive =>
    have hflags := tally_update IdleStatus.isIdle s.flags w .idle
    refine counted_of_balance (a := s.approxSize) h ?_
    rw [hactive] at hflags
    rw [hcall]
    simp only [IdleCall.adds, IdleCall.subtracts, IdleStatus.isIdle] at hflags ⊢
    omega
  | @setActive c w hcall hidle =>
    have hflags := tally_update IdleStatus.isIdle s.flags w .active
    refine counted_of_balance (a := s.approxSize) h ?_
    rw [hidle] at hflags
    rw [hcall]
    simp only [IdleCall.adds, IdleCall.subtracts, IdleStatus.isIdle] at hflags ⊢
    omega
  | @acquire c f hcall hidle =>
    have hflags := tally_update IdleStatus.isIdle s.flags f.index .active
    refine counted_of_balance (a := s.approxSize) h ?_
    rw [hidle] at hflags
    rw [hcall]
    simp only [IdleCall.adds, IdleCall.subtracts, IdleStatus.isIdle] at hflags ⊢
    omega
  | increment hcall | decrement hcall | subtract hcall =>
    refine counted_of_balance h ?_
    rw [hcall]
    simp only [IdleCall.adds, IdleCall.subtracts]
    omega

end Counter

/-! ### Announcements -/

section Announcements

variable [Fintype C] {w : Fin (n + 1)}

/-- The announcements of `w` that are up or in the hand of a search. -/
def standing (w : Fin (n + 1)) (s : IdleWorkerSet C n) : Nat :=
  (s.flags w).isIdle + tally (IdleCall.holds w) s.call

/-- A call goes on while the flags stay. -/
theorem standing_setCall (w : Fin (n + 1)) (c : C) (k : IdleCall n) :
    standing w (s.setCall c k) + (s.call c).holds w = standing w s + k.holds w := by
  have hholds := tally_update (IdleCall.holds w) s.call c k
  show (s.flags w).isIdle + tally _ (Function.update s.call c k) + _ =
    (s.flags w).isIdle + tally _ s.call + _
  omega

omit [DecidableEq C] in
/-- The flag of `v` changes. -/
theorem standing_setFlag (w v : Fin (n + 1)) (st : IdleStatus) :
    standing w (s.setFlag v st) + (if v = w then (s.flags v).isIdle else 0) =
      standing w s + if v = w then st.isIdle else 0 := by
  show (Function.update s.flags v st w).isIdle + tally _ s.call + _ =
    (s.flags w).isIdle + tally _ s.call + _
  by_cases hv : v = w
  · subst hv
    rw [Function.update_self, if_pos rfl, if_pos rfl]
    omega
  · rw [Function.update_of_ne (Ne.symm hv), if_neg hv, if_neg hv]

theorem standing_approxSize (w : Fin (n + 1)) (a : Int) (c : C) (k : IdleCall n) :
    standing w ({ s with approxSize := a }.setCall c k) = standing w (s.setCall c k) := rfl

/-- A call goes on and has in hand what it had. -/
theorem standing_kept {c : C} {k k' : IdleCall n} (hcall : s.call c = k)
    (hholds : k'.holds w = k.holds w) : standing w (s.setCall c k') = standing w s := by
  have hset := standing_setCall (s := s) w c k'
  rw [hcall] at hset
  omega

/-- A search reports what it has in hand. -/
theorem standing_leave {c : C} {f : Scan n} (hcall : s.call c = .returned f) :
    standing w (s.setCall c .none) + f.found.count w = standing w s := by
  have hset := standing_setCall (s := s) w c .none
  rw [hcall] at hset
  exact hset

/-- A call changes the flag of `v`. -/
theorem standing_exchange {c : C} {v : Fin (n + 1)} {k : IdleCall n} (st : IdleStatus)
    (k' : IdleCall n) (hcall : s.call c = k) :
    standing w ((s.setFlag v st).setCall c k') + k.holds w +
        (if v = w then (s.flags v).isIdle else 0) =
      standing w s + k'.holds w + if v = w then st.isIdle else 0 := by
  have hset := standing_setCall (s := s.setFlag v st) w c k'
  have hflag := standing_setFlag (s := s) w v st
  have hold : ((s.setFlag v st).call c).holds w = k.holds w := by rw [← hcall]; rfl
  omega

/-- What a step does to the announcements of `w`. -/
theorem standing_moves (w : Fin (n + 1)) (hm : IdleMoves s l s') :
    standing w s' + withdraws w s l + reports w s l = standing w s + announces w s l := by
  cases hm with
  | @enter c op hcall =>
    have hzero : op.enter.holds w = 0 := by
      cases op with
      | findIdleWorker caller => cases caller <;> rfl
      | _ => rfl
    rw [standing_kept hcall hzero]
    rfl
  | unchanged hcall =>
    rcases hcall with ⟨hcall, hflag⟩ | ⟨hcall, hflag⟩
    · rw [standing_kept hcall]
      · simp only [withdraws, reports, announces, hcall]
        grind
      · rfl
    · rw [standing_kept hcall]
      · simp only [withdraws, reports, announces, hcall]
        grind
      · rfl
  | loadNone hcall | load hcall | skip hcall | found hcall | ended hcall | late hcall =>
    rw [standing_kept hcall]
    · simp [withdraws, reports, announces, hcall]
    · rfl
  | increment hcall | decrement hcall | subtract hcall =>
    rw [standing_approxSize, standing_kept hcall]
    · simp [withdraws, reports, announces, hcall]
    · rfl
  | @setIdle c v hcall hactive =>
    have hex := standing_exchange (w := w) (v := v) .idle .increment hcall
    rw [hactive] at hex
    simp only [IdleCall.holds, IdleStatus.isIdle] at hex
    simp only [withdraws, reports, announces, hcall]
    grind
  | @setActive c v hcall hidle =>
    have hex := standing_exchange (w := w) (v := v) .active .decrement hcall
    rw [hidle] at hex
    simp only [IdleCall.holds, IdleStatus.isIdle] at hex
    simp only [withdraws, reports, announces, hcall]
    grind
  | @acquire c f hcall hidle =>
    have hex := standing_exchange (w := w) (v := f.index) .active (.subtract f) hcall
    rw [hidle] at hex
    simp only [IdleCall.holds, IdleStatus.isIdle, List.count_append, List.count_singleton] at hex
    simp only [withdraws, reports, announces, hcall]
    grind
  | @leave c f hcall =>
    have hleave := standing_leave (w := w) hcall
    have hannounces : announces w s (.next c) = 0 := by simp [announces, hcall]
    have hwithdraws : withdraws w s (.next c) = 0 := by simp [withdraws, hcall]
    have hreports : reports w s (.next c) = f.found.count w := by simp [reports, hcall]
    omega

end Announcements

/-! ### Searches -/

theorem index_injective {a j j' : Nat} (hj : j < n + 1) (hj' : j' < n + 1)
    (h : Fin.ofNat (n + 1) (a + j) = Fin.ofNat (n + 1) (a + j')) : j = j' := by
  have hmod : a + j ≡ a + j' [MOD n + 1] := congrArg Fin.val h
  exact (Nat.ModEq.add_left_cancel' a hmod).eq_of_lt_of_lt hj hj'

/-- A search that has come to `i`: it has passed each flag once. -/
structure Scanned (f : Scan n) : Prop where
  places : ∃ js : List Nat, js.Nodup ∧ (∀ j ∈ js, j < f.i) ∧
    f.found = js.map fun j => Fin.ofNat (n + 1) (f.start + j)
  i_le : f.i ≤ n + 1
  notCaller : ∀ w ∈ f.found, some w ≠ f.caller
  length_le : f.found.length ≤ f.limit
  limit_le : f.limit ≤ f.maxCount

/-- The flag at the index may be taken. -/
structure Scannable (f : Scan n) : Prop extends Scanned f where
  i_lt : f.i < n + 1
  length_lt : f.found.length < f.limit
  caller_ne : some f.index ≠ f.caller

theorem Scanned.next {f : Scan n} (h : Scanned f) (hi : f.i < n + 1) : Scanned f.next := by
  obtain ⟨js, hnodup, hlt, hfound⟩ := h.places
  exact ⟨⟨js, hnodup, fun j hj => Nat.lt_succ_of_lt (hlt j hj), hfound⟩, hi, h.notCaller,
    h.length_le, h.limit_le⟩

theorem Scannable.push {f : Scan n} (h : Scannable f) : Scanned f.push := by
  obtain ⟨js, hnodup, hlt, hfound⟩ := h.places
  refine ⟨⟨js ++ [f.i], ?_, ?_, ?_⟩, h.i_lt, ?_, ?_, h.limit_le⟩
  · refine List.nodup_append'.mpr ⟨hnodup, List.nodup_singleton _, fun j hj hi => ?_⟩
    rw [List.mem_singleton] at hi
    exact Nat.ne_of_lt (hlt j hj) hi
  · intro j hj
    rcases List.mem_append.mp hj with hj | hj
    · exact Nat.lt_succ_of_lt (hlt j hj)
    · rw [List.mem_singleton.mp hj]
      exact Nat.lt_succ_self _
  · show f.found ++ [f.index] = _
    rw [List.map_append, hfound]
    rfl
  · intro w hw
    rcases List.mem_append.mp hw with hw | hw
    · exact h.notCaller w hw
    · rw [List.mem_singleton.mp hw]
      exact h.caller_ne
  · show (f.found ++ [f.index]).length ≤ f.limit
    rw [List.length_append]
    exact h.length_lt

theorem Scanned.answer {f : Scan n} (h : Scanned f) : IdleAnswer f.caller f.maxCount f.found := by
  obtain ⟨js, hnodup, hlt, hfound⟩ := h.places
  refine ⟨?_, h.notCaller, h.length_le.trans h.limit_le⟩
  rw [hfound]
  refine List.Nodup.map_on (fun j hj j' hj' heq => ?_) hnodup
  exact index_injective (Nat.lt_of_lt_of_le (hlt j hj) h.i_le)
    (Nat.lt_of_lt_of_le (hlt j' hj') h.i_le) heq

/-- A call is right about its search. -/
def Searching : IdleCall n → Prop
  | .load f => f.found = [] ∧ f.i = 0 ∧ f.limit = 0
  | .scan f | .returned f => Scanned f
  | .acquire f | .subtract f => Scannable f
  | _ => True

theorem scanned_start {f : Scan n} (hfound : f.found = []) (hi : f.i = 0)
    (hlimit : f.limit ≤ f.maxCount) : Scanned f := by
  refine ⟨⟨[], List.nodup_nil, by simp, hfound⟩, by omega, ?_, ?_, hlimit⟩
  · simp [hfound]
  · simp [hfound]

theorem searching_enter (op : IdleOp n) : Searching op.enter := by
  cases op with
  | findIdleWorker caller => cases caller <;> exact ⟨rfl, rfl, rfl⟩
  | findIdleWorkers => exact ⟨rfl, rfl, rfl⟩
  | _ => trivial

/-- A call goes on, and the others stay as they are. -/
theorem setCall_all {I : C → IdleCall n → Prop} {c : C} {k : IdleCall n} (hk : I c k)
    (h : ∀ d, d ≠ c → I d (s.call d)) (d : C) : I d ((s.setCall c k).call d) := by
  show I d (Function.update s.call c k d)
  rcases eq_or_ne d c with rfl | hne
  · rwa [Function.update_self]
  · rw [Function.update_of_ne hne]
    exact h d hne

theorem searching_moves (h : ∀ c, Searching (s.call c)) (hm : IdleMoves s l s') :
    ∀ c, Searching (s'.call c) := by
  have hset : ∀ {t : IdleWorkerSet C n} {c : C} {k : IdleCall n}, t.call = s.call → Searching k →
      ∀ d, Searching ((t.setCall c k).call d) := fun ht hk =>
    setCall_all (I := fun _ k => Searching k) hk fun d _ => ht ▸ h d
  -- what the thread that goes on knew of its search
  have hknown : ∀ {c : C} {k : IdleCall n}, s.call c = k → Searching k := fun hcall => hcall ▸ h _
  cases hm with
  | @enter c op => exact hset rfl (searching_enter op)
  | unchanged | setIdle | increment | setActive | decrement | leave => exact hset rfl trivial
  | loadNone hcall =>
    obtain ⟨hfound, hi, hlimit⟩ := hknown hcall
    exact hset rfl (scanned_start hfound hi (hlimit ▸ Nat.zero_le _))
  | load hcall =>
    obtain ⟨hfound, hi, -⟩ := hknown hcall
    exact hset rfl (scanned_start hfound hi (Nat.min_le_right _ _))
  | skip hcall hi =>
    have hscan : Scanned _ := hknown hcall
    exact hset rfl (hscan.next hi)
  | found hcall hi hlength hcaller =>
    have hscan : Scanned _ := hknown hcall
    exact hset rfl { hscan with i_lt := hi, length_lt := hlength, caller_ne := hcaller }
  | ended hcall =>
    have hscan : Scanned _ := hknown hcall
    exact hset rfl hscan
  | late hcall =>
    have hscan : Scannable _ := hknown hcall
    exact hset rfl (hscan.toScanned.next hscan.i_lt)
  | acquire hcall =>
    have hscan : Scannable _ := hknown hcall
    exact hset rfl hscan
  | subtract hcall =>
    have hscan : Scannable _ := hknown hcall
    exact hset rfl hscan.push

theorem searching_run {tr : List (IdleWorkerSet C n × IdleLabel C n × IdleWorkerSet C n)}
    (hrun : Run Steps create tr s) : ∀ c, Searching (s.call c) :=
  hrun.inv_all (fun _ => show Searching (.none : IdleCall n) from trivial) fun h hstep =>
    searching_moves h (moves_of_steps hstep)

/-! ### Steps of a call -/

theorem rank_enter (op : IdleOp n) : op.enter.rank ≤ 3 * n + 6 := by
  cases op with
  | setIdle | setActive => exact Nat.le_add_left 2 (3 * n + 4)
  | findIdleWorker caller => cases caller <;> exact le_rfl
  | findIdleWorkers => exact le_rfl

/-- Each step of a thread in its call lowers the rank, and no step of another changes it. -/
theorem rank_moves (c : C) (h : ∀ c, Searching (s.call c)) (hm : IdleMoves s l s') :
    stepsInCall c s l + (s'.call c).rank ≤ (s.call c).rank + (3 * n + 6) * beginsCall c s l := by
  -- the thread `d` goes on to `k`
  have hset : ∀ {t : IdleWorkerSet C n} {d : C} {k : IdleCall n}, t.call = s.call →
      k.rank < (s.call d).rank →
      stepsInCall c s (.next d) + ((t.setCall d k).call c).rank ≤
        (s.call c).rank + (3 * n + 6) * beginsCall c s (.next d) := by
    intro t d k ht hk
    show (if d = c then 1 else 0) + (Function.update t.call d k c).rank ≤ (s.call c).rank
    rcases eq_or_ne c d with rfl | hne
    · rw [if_pos rfl, Function.update_self, Nat.add_comm]
      exact hk
    · rw [if_neg hne.symm, Function.update_of_ne hne, ht, Nat.zero_add]
  have hscan : ∀ {d : C} {k : IdleCall n}, s.call d = k → Searching k := fun hcall => hcall ▸ h _
  cases hm with
  | @enter d op hcall =>
    show 0 + (Function.update s.call d op.enter c).rank ≤
      (s.call c).rank + (3 * n + 6) * if d = c then 1 else 0
    rcases eq_or_ne c d with rfl | hne
    · rw [if_pos rfl, Function.update_self, Nat.zero_add, Nat.mul_one]
      exact (rank_enter op).trans (Nat.le_add_left _ _)
    · rw [if_neg hne.symm, Function.update_of_ne hne, Nat.zero_add]
      exact Nat.le_add_right _ _
  | unchanged hcall =>
    rcases hcall with ⟨hcall, -⟩ | ⟨hcall, -⟩
    · exact hset rfl (by rw [hcall]; exact Nat.zero_lt_two)
    · exact hset rfl (by rw [hcall]; exact Nat.zero_lt_two)
  | setIdle hcall | setActive hcall =>
    exact hset rfl (by rw [hcall]; exact Nat.one_lt_two)
  | increment hcall | decrement hcall | leave hcall =>
    exact hset rfl (by rw [hcall]; exact Nat.zero_lt_one)
  | loadNone hcall =>
    exact hset rfl (by rw [hcall]; exact Nat.lt_add_left _ (Nat.succ_lt_succ (Nat.succ_pos 4)))
  | @load d f hcall =>
    obtain ⟨-, hi, -⟩ := hscan hcall
    refine hset rfl ?_
    rw [hcall]
    simp only [IdleCall.rank, hi]
    omega
  | skip hcall hi =>
    refine hset rfl ?_
    rw [hcall]
    simp only [IdleCall.rank, Scan.next]
    omega
  | found hcall =>
    exact hset rfl (by rw [hcall]; exact Nat.lt_succ_self _)
  | ended hcall =>
    exact hset rfl (by rw [hcall]; exact Nat.lt_add_left _ Nat.one_lt_two)
  | late hcall =>
    have hi : _ < n + 1 := (hscan hcall : Scannable _).i_lt
    refine hset rfl ?_
    rw [hcall]
    simp only [IdleCall.rank, Scan.next]
    omega
  | acquire hcall =>
    exact hset rfl (by rw [hcall]; exact Nat.lt_succ_self _)
  | subtract hcall =>
    have hi : _ < n + 1 := (hscan hcall : Scannable _).i_lt
    refine hset rfl ?_
    rw [hcall]
    simp only [IdleCall.rank, Scan.push]
    omega

theorem rank_le {tr : List (IdleWorkerSet C n × IdleLabel C n × IdleWorkerSet C n)} (c : C)
    (hrun : Run Steps create tr s) : (s.call c).rank ≤ 3 * n + 6 := by
  induction hrun with
  | nil => exact Nat.zero_le _
  | @snoc tr s s' l hpre hstep ih =>
    have hmove := moves_of_steps hstep
    cases l with
    | next d =>
      have hrank := rank_moves c (searching_run hpre) hmove
      have hnone : beginsCall c s (.next d) = 0 := rfl
      rw [hnone, Nat.mul_zero, Nat.add_zero] at hrank
      exact (Nat.le_of_add_left_le hrank).trans ih
    | enter d op =>
      cases hmove with
      | enter =>
        show (Function.update s.call d op.enter c).rank ≤ 3 * n + 6
        rcases eq_or_ne c d with rfl | hne
        · rw [Function.update_self]
          exact rank_enter op
        · rwa [Function.update_of_ne hne]

theorem next_possible {c : C} (h : s.call c ≠ .none) : ∃ s', Steps s (.next c) s' := by
  simp only [Steps, IdleWorkerSet.step, IdleWorkerSet.next]
  cases hc : s.call c with
  | none => exact absurd hc h
  | setIdle | setActive | load | acquire =>
    dsimp only
    split <;> exact ⟨_, rfl⟩
  | scan =>
    dsimp only
    split
    · split <;> exact ⟨_, rfl⟩
    · exact ⟨_, rfl⟩
  | increment | decrement | subtract | returned => exact ⟨_, rfl⟩

end IdleWorkerLemmas

open IdleWorkerLemmas

variable {C : Type} [DecidableEq C] {n : Nat}
variable {tr tr' : List (IdleWorkerSet C n × IdleLabel C n × IdleWorkerSet C n)}
variable {s s' : IdleWorkerSet C n}

/-- The counter is the number of idle workers, up to the calls that have changed a flag and not yet
the counter. -/
theorem approx_size_exact [Fintype C] (hrun : Run Steps create tr s) :
    s.approxSize + (tally IdleCall.adds s.call : Nat) =
        (tally IdleStatus.isIdle s.flags : Nat) + (tally IdleCall.subtracts s.call : Nat) ∧
      ((∀ c, (s.call c).adds = 0 ∧ (s.call c).subtracts = 0) →
        s.approxSize = (Finset.univ.filter fun w => s.flags w = .idle).card) := by
  have hcounted : Counted s :=
    hrun.inv_all counted_create fun h hstep => counted_moves h (moves_of_steps hstep)
  refine ⟨hcounted, fun hquiet => ?_⟩
  have hadds : tally IdleCall.adds s.call = 0 := Finset.sum_eq_zero fun c _ => (hquiet c).1
  have hsubtracts : tally IdleCall.subtracts s.call = 0 := Finset.sum_eq_zero fun c _ => (hquiet c).2
  have hcard : tally IdleStatus.isIdle s.flags =
      (Finset.univ.filter fun w => s.flags w = .idle).card := by
    rw [Finset.card_filter]
    refine Finset.sum_congr rfl fun w _ => ?_
    cases s.flags w <;> rfl
  unfold Counted at hcounted
  omega

/-- `c` announces `v` idle and has begun to announce `w`; the search of `d` has found `v`. -/
def searchSchedule (c d v w : Fin 2) : List (IdleLabel (Fin 2) 1) :=
  [.enter c (.setIdle v), .next c, .next c, .enter c (.setIdle w), .next c,
   .enter d (.findIdleWorker none 0), .next d, .next d, .next d]

theorem approx_size_exact_between :
    ∃ tr s, Run Steps (create : IdleWorkerSet (Fin 2) 1) tr s ∧ s.approxSize = 1 ∧
      s.call 0 = .increment ∧ s.flags 0 = .active ∧ s.flags 1 = .idle ∧
      (s.approxSize + (tally IdleCall.adds s.call : Nat) =
          (tally IdleStatus.isIdle s.flags : Nat) + (tally IdleCall.subtracts s.call : Nat) ∧
        ((∀ c, (s.call c).adds = 0 ∧ (s.call c).subtracts = 0) →
          s.approxSize = (Finset.univ.filter fun w => s.flags w = .idle).card)) := by
  obtain ⟨tr, s, hrun, -, hview⟩ := exists_run IdleWorkerSet.step (R := Steps) id
    (create : IdleWorkerSet (Fin 2) 1) (searchSchedule 0 1 0 1)
    (fun r => (r.2.approxSize, r.2.call 0, r.2.flags 0, r.2.flags 1))
    (v := (1, .increment, .active, .idle)) (by decide)
  obtain ⟨hsize, hrest⟩ := Prod.mk.inj hview
  obtain ⟨hcall, hrest⟩ := Prod.mk.inj hrest
  obtain ⟨hfirst, hsecond⟩ := Prod.mk.inj hrest
  exact ⟨tr, s, hrun, hsize, hcall, hfirst, hsecond, approx_size_exact hrun⟩

/-- Each time `w` was announced idle, its flag still says so, or it took the announcement back, or
exactly one search has reported it or has it in hand. -/
theorem announcements_kept [Fintype C] (w : Fin (n + 1)) (hrun : Run Steps create tr s) :
    eventCount (announces w) tr =
      eventCount (withdraws w) tr + eventCount (reports w) tr + standing w s := by
  induction hrun with
  | nil =>
    have hholds : tally (IdleCall.holds w) (fun _ : C => (.none : IdleCall n)) = 0 := tally_const rfl
    show 0 = 0 + 0 + (0 + tally (IdleCall.holds w) fun _ : C => .none)
    rw [hholds]
  | @snoc tr s s' l _ hstep ih =>
    have hmove := standing_moves w (moves_of_steps hstep)
    rw [eventCount_snoc, eventCount_snoc, eventCount_snoc]
    omega

/-- The search holds the worker 0 and has not reported it. -/
theorem announcements_kept_held :
    ∃ tr s, Run Steps (create : IdleWorkerSet (Fin 2) 1) tr s ∧ s.flags 0 = .active ∧
      eventCount (reports 0) tr = 0 ∧
      eventCount (announces 0) tr =
        eventCount (withdraws 0) tr + eventCount (reports 0) tr + standing 0 s := by
  obtain ⟨tr, s, hrun, -, hview⟩ := exists_run IdleWorkerSet.step (R := Steps) id
    (create : IdleWorkerSet (Fin 2) 1) (searchSchedule 0 1 0 1)
    (fun r => (r.2.flags 0, eventCount (reports 0) r.1)) (v := (.active, 0)) (by decide)
  obtain ⟨hflag, hreports⟩ := Prod.mk.inj hview
  exact ⟨tr, s, hrun, hflag, hreports, announcements_kept 0 hrun⟩

/-- A search reports no worker twice, not its caller, and no more than asked for. -/
theorem answer_ok {c : C} {f : Scan n} (hrun : Run Steps create tr s)
    (hcall : s.call c = .returned f) : IdleAnswer f.caller f.maxCount f.found := by
  have hscan := searching_run hrun c
  rw [hcall] at hscan
  exact Scanned.answer hscan

/-- The worker 1 asks for one worker, and both others are idle. -/
theorem answer_ok_one :
    ∃ tr s, ∃ f : Scan 2, Run Steps (create : IdleWorkerSet (Fin 2) 2) tr s ∧
      s.call 1 = .returned f ∧ f.found = [2] ∧ IdleAnswer f.caller f.maxCount f.found := by
  obtain ⟨tr, s, hrun, -, hview⟩ := exists_run IdleWorkerSet.step (R := Steps) id
    (create : IdleWorkerSet (Fin 2) 2)
    ([.enter 0 (.setIdle 0), .next 0, .next 0, .enter 0 (.setIdle 2), .next 0, .next 0,
      .enter 1 (.findIdleWorkers 1 1)] ++ List.replicate 6 (.next 1))
    (fun r => r.2.call 1) (v := .returned
      { caller := some 1, maxCount := 1, start := 1, limit := 1, i := 2, found := [2] }) (by decide)
  exact ⟨tr, s, _, hrun, hview, rfl, answer_ok hrun hview⟩

/-- From any moment on a thread takes at most `rank` steps to the end of the call that it is in, and
`3 * n + 6` for each call that it begins, whatever the others do; and in a call it can always take
the next one. -/
theorem idle_calls_end (c : C) (hrun : Run Steps create tr s) (hafter : Run Steps s tr' s') :
    (s.call c).rank ≤ 3 * n + 6 ∧
      eventCount (stepsInCall c) tr' + (s'.call c).rank ≤
        (s.call c).rank + (3 * n + 6) * eventCount (beginsCall c) tr' ∧
      (s'.call c ≠ .none → ∃ s'', Steps s' (.next c) s'') := by
  refine ⟨rank_le c hrun, ?_, next_possible⟩
  induction hafter with
  | nil => exact (Nat.zero_add _).le
  | @snoc tr' r r' l hpre hstep ih =>
    have hmove := rank_moves c (searching_run (hrun.append hpre)) (moves_of_steps hstep)
    rw [eventCount_snoc, eventCount_snoc, Nat.mul_add]
    omega

/-- The search has come to its last flag, and another thread takes that first. -/
theorem idle_calls_end_late :
    ∃ tr s, Run Steps (create : IdleWorkerSet (Fin 2) 1) tr s ∧
      s.call 1 = .scan { caller := none, maxCount := 1, start := 0, limit := 1, i := 2 } ∧
      eventCount (stepsInCall 1) tr + (s.call 1).rank ≤
        ((create : IdleWorkerSet (Fin 2) 1).call 1).rank +
          (3 * 1 + 6) * eventCount (beginsCall 1) tr ∧
      (s.call 1 ≠ .none → ∃ s', Steps s (.next 1) s') := by
  obtain ⟨tr, s, hrun, -, hview⟩ := exists_run IdleWorkerSet.step (R := Steps) id
    (create : IdleWorkerSet (Fin 2) 1)
    [.enter 0 (.setIdle 1), .next 0, .next 0, .enter 1 (.findIdleWorker none 0), .next 1, .next 1,
      .next 1, .enter 0 (.setActive 1), .next 0, .next 1]
    (fun r => r.2.call 1) (v := .scan
      { caller := none, maxCount := 1, start := 0, limit := 1, i := 2 }) (by decide)
  exact ⟨tr, s, hrun, hview, (idle_calls_end 1 .nil hrun).2⟩

end FlavoEngine.Engine

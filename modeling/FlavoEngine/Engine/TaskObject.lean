import Mathlib.Data.List.Basic
import Mathlib.Logic.Function.Basic
import Mathlib.Tactic.SplitIfs

/-!
# Task objects

`concurrencpp/task.h`. A `task` holds one callable of any type: in its own buffer if the callable is
small and its move cannot throw, else in a block of the free store. Its vtable tells which. What
`submit` puts into a task is an `await_via_functor`, which resumes the coroutine of the task when it
is called, and as interrupted when it is destroyed without having been called. A task made from a
coroutine handle resumes the coroutine, too, and destroys its frame otherwise.

* A callable is known by a token that goes with it when it is moved: the handle of the coroutine, or
  a token of its own for callables of other types. A callable that was moved from has none.
* `await_via_functor` and `coroutine_handle_functor` do not throw when they are called; a callable
  of another type may. What a callable does to other tasks is done by steps of its own.
* A move of a callable does not throw, and the free store does not run out.
* Where the source would use a callable that is not there, the model has no result.

Results:
1. `build_spec`, `buildFrom_spec`, `clear_spec`, `execute_spec`: what becomes of the callable when a
   task is built, moved, cleared or called.
-/

namespace FlavoEngine.Engine

/-! ## Callables -/

def taskTotalSize : Nat := 64

/-- The buffer leaves room for the pointer to the vtable. -/
def taskBufferSize : Nat := taskTotalSize - 8

/-- What `callable_vtable` reads of a callable type. -/
structure CallableTraits where
  nothrowMoveConstructible : Bool
  sizeof : Nat
  triviallyCopyConstructible : Bool
  triviallyDestructible : Bool

def CallableTraits.isInlinable (c : CallableTraits) : Bool :=
  c.nothrowMoveConstructible && decide (c.sizeof ≤ taskBufferSize)

inductive CallableType (K : Type) where
  | coroutineHandleFunctor
  | awaitViaFunctor
  | other (k : K)
deriving DecidableEq

def CallableType.traits {K : Type} (traits : K → CallableTraits) : CallableType K → CallableTraits
  | .coroutineHandleFunctor => ⟨true, 8, false, false⟩
  | .awaitViaFunctor => ⟨true, 16, false, false⟩
  | .other k => traits k

inductive TaskEvent (R : Type) where
  | resume (r : R) (interrupted : Bool)
  /-- `coroutine_handle::destroy`. -/
  | destroyFrame (r : R)
  | call (r : R)
  /-- The destructor of a callable of another type. -/
  | destruct (r : R)
  /-- The memory of a callable is left without a call of its destructor. -/
  | abandon (r : R)
deriving DecidableEq

structure Callable (K R : Type) where
  type : CallableType K
  content : Option R

namespace Callable

variable {K R : Type}

/-- The new callable, and the one that was moved from. -/
def moveConstruct (c : Callable K R) : Callable K R × Callable K R :=
  (c, { c with content := none })

/-- The destructor. -/
def destruct (c : Callable K R) : List (TaskEvent R) :=
  match c.type, c.content with
  | .coroutineHandleFunctor, some h => [.destroyFrame h]
  | .awaitViaFunctor, some h => [.resume h true]
  | .other _, some r => [.destruct r]
  | _, none => []

/-- `operator()`. -/
def invoke (c : Callable K R) : Option (Callable K R × List (TaskEvent R)) :=
  match c.type, c.content with
  | .coroutineHandleFunctor, some h | .awaitViaFunctor, some h =>
    some ({ c with content := none }, [.resume h false])
  | .other _, some r => some (c, [.call r])
  | _, none => none

def abandon (c : Callable K R) : List (TaskEvent R) :=
  c.content.toList.map .abandon

end Callable

/-! ## `callable_vtable` -/

/-- `m_buffer`. -/
inductive TaskBuffer (K R : Type) where
  | raw
  | object (c : Callable K R)
  | pointer (b : Option Nat)

/-- The free store, as far as callables lie in it, and what has happened. -/
structure TaskMemory (K R : Type) where
  heap : Nat → Option (Callable K R) := fun _ => none
  events : List (TaskEvent R) := []

/-- Which functions of the vtable are not null. `execute_destroy_fn` never is. -/
structure TaskVtable where
  moveDestroyFn : Bool
  destroyFn : Bool

namespace CallableTraits

variable {K R : Type}

def makeVtable (c : CallableTraits) : TaskVtable where
  moveDestroyFn :=
    !(c.triviallyCopyConstructible && c.triviallyDestructible && c.isInlinable)
  destroyFn := !(c.triviallyDestructible && c.isInlinable)

/-- `build`, with the block `b` from the free store. The callable is passed as an rvalue. -/
def build (t : CallableTraits) (c : Callable K R) (b : Nat) (m : TaskMemory K R) :
    TaskBuffer K R × TaskMemory K R :=
  if t.isInlinable then (.object c.moveConstruct.1, m)
  else (.pointer (some b), { m with heap := Function.update m.heap b (some c.moveConstruct.1) })

/-- The new buffer, and the one that was moved from. -/
def moveDestroy (t : CallableTraits) (src : TaskBuffer K R) (m : TaskMemory K R) :
    Option (TaskBuffer K R × TaskBuffer K R × TaskMemory K R) :=
  if t.isInlinable then
    match src with
    | .object c =>
      some (.object c.moveConstruct.1, .raw,
        { m with events := m.events ++ c.moveConstruct.2.destruct })
    | _ => none
  else
    match src with
    | .pointer b => some (.pointer b, .pointer none, m)
    | _ => none

/-- The callable is called, and destroyed unless the call throws. -/
def executeDestroy (t : CallableTraits) (throws : Bool) (target : TaskBuffer K R)
    (m : TaskMemory K R) : Option (TaskBuffer K R × TaskMemory K R) :=
  if t.isInlinable then
    match target with
    | .object c => c.invoke.map fun r =>
      if throws then (.object r.1, { m with events := m.events ++ r.2 ++ r.1.abandon })
      else (.raw, { m with events := m.events ++ r.2 ++ r.1.destruct })
    | _ => none
  else
    match target with
    | .pointer (some b) => (m.heap b).bind fun c => c.invoke.map fun r =>
      if throws then
        (target,
          { heap := Function.update m.heap b (some r.1)
            events := m.events ++ r.2 ++ r.1.abandon })
      else
        (target,
          { heap := Function.update m.heap b none
            events := m.events ++ r.2 ++ r.1.destruct })
    | _ => none

def destroy (t : CallableTraits) (target : TaskBuffer K R) (m : TaskMemory K R) :
    Option (TaskBuffer K R × TaskMemory K R) :=
  if t.isInlinable then
    match target with
    | .object c => some (.raw, { m with events := m.events ++ c.destruct })
    | _ => none
  else
    match target with
    | .pointer none => some (target, m)
    | .pointer (some b) => (m.heap b).map fun c =>
      (target, { heap := Function.update m.heap b none, events := m.events ++ c.destruct })
    | _ => none

end CallableTraits

/-! ## `task` -/

/-- A vtable is known by the callable type that it was made for. -/
structure TaskObject (K R : Type) where
  mBuffer : TaskBuffer K R := .raw
  mVtable : Option (CallableType K) := none

namespace TaskObject

variable {K R : Type} [DecidableEq K] (traits : K → CallableTraits)

def build (t : CallableType K) (r : R) (b : Nat) (m : TaskMemory K R) :
    TaskObject K R × TaskMemory K R :=
  let res := (t.traits traits).build ⟨t, some r⟩ b m
  ({ mBuffer := res.1, mVtable := some t }, res.2)

/-- `build(std::move(rhs))` of a task with the buffer `buffer`: the task, and `rhs` after it. -/
def buildFrom (buffer : TaskBuffer K R) (rhs : TaskObject K R) (m : TaskMemory K R) :
    Option (TaskObject K R × TaskObject K R × TaskMemory K R) :=
  match rhs.mVtable with
  | none => some ({ mBuffer := buffer, mVtable := none }, rhs, m)
  | some t =>
    let moved := ((t.traits traits).moveDestroy rhs.mBuffer m).map fun r =>
      ({ mBuffer := r.1, mVtable := some t }, { mBuffer := r.2.1, mVtable := none }, r.2.2)
    if t = .coroutineHandleFunctor then moved
    else if t = .awaitViaFunctor then moved
    else if (t.traits traits).makeVtable.moveDestroyFn = false then
      -- `memcpy`: the bytes stay in `rhs`, which has no vtable any more
      some ({ mBuffer := rhs.mBuffer, mVtable := some t }, { rhs with mVtable := none }, m)
    else moved

/-- `operator()`. -/
def execute (throws : Bool) (o : TaskObject K R) (m : TaskMemory K R) :
    Option (TaskObject K R × TaskMemory K R) :=
  match o.mVtable with
  | none => some (o, m)
  | some t => ((t.traits traits).executeDestroy throws o.mBuffer m).map fun r =>
    ({ mBuffer := r.1, mVtable := none }, r.2)

def clear (o : TaskObject K R) (m : TaskMemory K R) : Option (TaskObject K R × TaskMemory K R) :=
  match o.mVtable with
  | none => some (o, m)
  | some t =>
    let destroyed := ((t.traits traits).destroy o.mBuffer m).map fun r =>
      ({ mBuffer := r.1, mVtable := none }, r.2)
    if t = .coroutineHandleFunctor then destroyed
    else if t = .awaitViaFunctor then destroyed
    else if (t.traits traits).makeVtable.destroyFn = false then
      match o.mBuffer with
      | .object c => some ({ o with mVtable := none }, { m with events := m.events ++ c.abandon })
      | _ => some ({ o with mVtable := none }, m)
    else destroyed

end TaskObject

/-! ## What a task holds -/

section Holds

variable {K R : Type} [DecidableEq K] (traits : K → CallableTraits)

/-- The task holds a callable with its token, or none, in its buffer or in a block. -/
inductive Holds (heap : Nat → Option (Callable K R)) :
    TaskObject K R → Option (CallableType K × R) → Option Nat → Prop
  | empty {buffer : TaskBuffer K R} : Holds heap { mBuffer := buffer, mVtable := none } none none
  | inlined {t : CallableType K} {r : R} : (t.traits traits).isInlinable = true →
      Holds heap { mBuffer := .object ⟨t, some r⟩, mVtable := some t } (some (t, r)) none
  | allocated {t : CallableType K} {r : R} {b : Nat} : (t.traits traits).isInlinable = false →
      heap b = some ⟨t, some r⟩ →
      Holds heap { mBuffer := .pointer (some b), mVtable := some t } (some (t, r)) (some b)

/-- What happens when a callable is destroyed that was not called. -/
def CallableType.cleared (t : CallableType K) (r : R) : TaskEvent R :=
  match t with
  | .coroutineHandleFunctor => .destroyFrame r
  | .awaitViaFunctor => .resume r true
  | .other k => if (traits k).makeVtable.destroyFn then .destruct r else .abandon r

/-- What happens when a callable is called. -/
def CallableType.executed (throws : Bool) (t : CallableType K) (r : R) : List (TaskEvent R) :=
  match t with
  | .coroutineHandleFunctor | .awaitViaFunctor => [.resume r false]
  | .other _ => [.call r, if throws then .abandon r else .destruct r]

def TaskMemory.put (m : TaskMemory K R) (c : Callable K R) : Option Nat → TaskMemory K R
  | none => m
  | some b => { m with heap := Function.update m.heap b (some c) }

def TaskMemory.free (m : TaskMemory K R) : Option Nat → TaskMemory K R
  | none => m
  | some b => { m with heap := Function.update m.heap b none }

variable {traits} {m : TaskMemory K R} {o : TaskObject K R} {x : Option (CallableType K × R)}
variable {y : Option Nat}

omit [DecidableEq K] in
variable (traits) in
/-- A task is built with its callable in the buffer or in the block from the free store. -/
theorem build_spec (t : CallableType K) (r : R) (b : Nat) (m : TaskMemory K R) :
    ∃ new z, TaskObject.build traits t r b m = (new, m.put ⟨t, some r⟩ z) ∧
      Holds traits (m.put ⟨t, some r⟩ z).heap new (some (t, r)) z ∧ (z = none ∨ z = some b) := by
  cases hinline : (t.traits traits).isInlinable with
  | true =>
    refine ⟨{ mBuffer := .object ⟨t, some r⟩, mVtable := some t }, none, ?_, .inlined hinline, .inl rfl⟩
    simp [TaskObject.build, CallableTraits.build, hinline, Callable.moveConstruct, TaskMemory.put]
  | false =>
    refine ⟨{ mBuffer := .pointer (some b), mVtable := some t }, some b, ?_,
      .allocated hinline (Function.update_self ..), .inr rfl⟩
    simp [TaskObject.build, CallableTraits.build, hinline, Callable.moveConstruct, TaskMemory.put]

/-- A move hands on the callable and touches nothing else. -/
theorem buildFrom_spec (buffer : TaskBuffer K R) (h : Holds traits m.heap o x y) :
    ∃ new old, TaskObject.buildFrom traits buffer o m = some (new, old, m) ∧
      Holds traits m.heap new x y ∧ Holds traits m.heap old none none := by
  cases h with
  | empty => exact ⟨_, _, rfl, .empty, .empty⟩
  | @inlined t r hinline =>
    have hmove : (t.traits traits).moveDestroy (.object ⟨t, some r⟩) m =
        some (.object ⟨t, some r⟩, .raw, m) := by
      unfold CallableTraits.moveDestroy
      rw [if_pos hinline]
      cases t <;> simp [Callable.moveConstruct, Callable.destruct]
    simp only [TaskObject.buildFrom, hmove, Option.map_some]
    split_ifs <;> exact ⟨_, _, rfl, .inlined hinline, .empty⟩
  | @allocated t r b hallocated hheap =>
    have hmove : (t.traits traits).moveDestroy (.pointer (some b)) m =
        some (.pointer (some b), .pointer none, m) := by
      unfold CallableTraits.moveDestroy
      rw [if_neg (by simp [hallocated])]
    simp only [TaskObject.buildFrom, hmove, Option.map_some]
    split_ifs <;> exact ⟨_, _, rfl, .allocated hallocated hheap, .empty⟩

theorem clear_none (h : Holds traits m.heap o none y) : TaskObject.clear traits o m = some (o, m) := by
  cases h
  rfl

/-- `clear` ends the callable. -/
theorem clear_spec {t : CallableType K} {r : R} (h : Holds traits m.heap o (some (t, r)) y) :
    ∃ old, TaskObject.clear traits o m =
        some (old, { m.free y with events := m.events ++ [t.cleared traits r] }) ∧
      old.mVtable = none := by
  cases h with
  | inlined hinline =>
    cases t with
    | coroutineHandleFunctor | awaitViaFunctor =>
      simp [TaskObject.clear, CallableTraits.destroy, hinline, Callable.destruct, TaskMemory.free,
        CallableType.cleared]
    | other k =>
      have hinline : (traits k).isInlinable = true := hinline
      cases hdestroy : (traits k).makeVtable.destroyFn <;>
        simp [TaskObject.clear, CallableTraits.destroy, CallableType.traits, hinline, hdestroy,
          Callable.destruct, Callable.abandon, TaskMemory.free, CallableType.cleared]
  | allocated hallocated hheap =>
    cases t with
    | coroutineHandleFunctor | awaitViaFunctor => cases hallocated
    | other k =>
      have hallocated : (traits k).isInlinable = false := hallocated
      have hdestroy : (traits k).makeVtable.destroyFn = true := by
        simp [CallableTraits.makeVtable, hallocated]
      simp [TaskObject.clear, CallableTraits.destroy, CallableType.traits, hallocated, hdestroy, hheap,
        Callable.destruct, TaskMemory.free, CallableType.cleared]

omit [DecidableEq K] in
theorem execute_none {throws : Bool} (h : Holds traits m.heap o none y) :
    TaskObject.execute traits throws o m = some (o, m) := by
  cases h
  rfl

omit [DecidableEq K] in
/-- A call ends the callable, too; its block stays in use if it throws. -/
theorem execute_spec {t : CallableType K} {r : R} {throws : Bool}
    (h : Holds traits m.heap o (some (t, r)) y)
    (hthrows : throws = true → ∃ k, t = .other k) :
    ∃ old, TaskObject.execute traits throws o m =
        some (old, { (if throws then m else m.free y) with
          events := m.events ++ t.executed throws r }) ∧
      old.mVtable = none := by
  cases h with
  | inlined hinline =>
    cases throws with
    | true =>
      obtain ⟨k, rfl⟩ := hthrows rfl
      simp [TaskObject.execute, CallableTraits.executeDestroy, hinline, Callable.invoke,
        Callable.abandon, CallableType.executed]
    | false =>
      cases t <;>
        simp [TaskObject.execute, CallableTraits.executeDestroy, hinline, Callable.invoke,
          Callable.destruct, TaskMemory.free, CallableType.executed]
  | @allocated _ _ b hallocated hheap =>
    cases throws with
    | true =>
      obtain ⟨k, rfl⟩ := hthrows rfl
      have hsame : Function.update m.heap b (some ⟨.other k, some r⟩) = m.heap := by
        rw [← hheap, Function.update_eq_self]
      simp [TaskObject.execute, CallableTraits.executeDestroy, hallocated, hheap, Callable.invoke,
        Callable.abandon, CallableType.executed, hsame]
    | false =>
      cases t with
      | coroutineHandleFunctor | awaitViaFunctor => cases hallocated
      | other k =>
        simp [TaskObject.execute, CallableTraits.executeDestroy, hallocated, hheap, Callable.invoke,
          Callable.destruct, TaskMemory.free, CallableType.executed]

end Holds

end FlavoEngine.Engine

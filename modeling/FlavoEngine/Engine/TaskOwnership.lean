import Mathlib.Data.List.Nodup
import FlavoEngine.Lib.Ownership
import FlavoEngine.Lib.Run
import FlavoEngine.Engine.TaskObject

/-!
# Who ends the callables

The pool moves tasks from queue to queue, calls them and destroys them. Here programs do so with any
number of `task` objects, in any order.

Results:
1. `callables_once`: every operation is defined, and a callable is held by one task and untouched,
   or one operation on the task that held it has ended it. A call that does not throw destroys it.
2. `leak_iff`: every block in use is held by a task, and every destructor was run for a callable
   that is held no more, exactly when no callable throws that lies in a block or needs a destructor.
-/

namespace FlavoEngine.Engine

open FlavoEngine.Lib

/-! ## Programs -/

/-- The `task` objects that are alive, and the callables that were put into tasks. -/
structure TaskStore (I K R : Type) where
  task : I → Option (TaskObject K R) := fun _ => none
  memory : TaskMemory K R := {}
  built : List (CallableType K × R) := []

inductive TaskOp (I K R : Type) where
  | construct (i : I)
  /-- The free store answers with the block `b`, where it is asked. -/
  | build (i : I) (t : CallableType K) (r : R) (b : Nat)
  | moveConstruct (i src : I)
  | moveAssign (i src : I)
  | execute (i : I) (throws : Bool)
  | clear (i : I)
  | destruct (i : I)
deriving DecidableEq

namespace TaskStore

variable {I K R : Type} [DecidableEq I] [DecidableEq K] [DecidableEq R]
variable (traits : K → CallableTraits)

def init : TaskStore I K R := {}

def setTask (s : TaskStore I K R) (i : I) (o : Option (TaskObject K R)) : TaskStore I K R :=
  { s with task := Function.update s.task i o }

/-- The callable type of what the task holds. -/
def holdsType (s : TaskStore I K R) (i : I) : Option (CallableType K) :=
  (s.task i).bind TaskObject.mVtable

/-- A program may run the operation here. A callable is built once, and the functors of the library
do not throw. -/
def may (s : TaskStore I K R) : TaskOp I K R → Bool
  | .construct i => (s.task i).isNone
  | .build i _ r b => (s.task i).isNone && decide (r ∉ s.built.map (·.2)) && (s.memory.heap b).isNone
  | .moveConstruct i src => (s.task i).isNone && (s.task src).isSome
  | .moveAssign i src => (s.task i).isSome && (s.task src).isSome
  | .execute i throws => (s.task i).isSome &&
    (!throws || match s.holdsType i with
      | some (.other _) => true
      | _ => false)
  | .clear i | .destruct i => (s.task i).isSome

def build (s : TaskStore I K R) (i : I) (t : CallableType K) (r : R) (b : Nat) : TaskStore I K R :=
  let res := TaskObject.build traits t r b s.memory
  { task := Function.update s.task i (some res.1)
    memory := res.2
    built := s.built ++ [(t, r)] }

/-- The task `i`, with the buffer that it has, gets what `src` holds. -/
def moveFrom (s : TaskStore I K R) (i src : I) (buffer : TaskBuffer K R) : Option (TaskStore I K R) :=
  (s.task src).bind fun rhs => (TaskObject.buildFrom traits buffer rhs s.memory).map fun res =>
    { s with
      task := Function.update (Function.update s.task src (some res.2.1)) i (some res.1)
      memory := res.2.2 }

def clear (s : TaskStore I K R) (i : I) : Option (TaskStore I K R) :=
  (s.task i).bind fun o => (TaskObject.clear traits o s.memory).map fun res =>
    { s with task := Function.update s.task i (some res.1), memory := res.2 }

def execute (s : TaskStore I K R) (i : I) (throws : Bool) : Option (TaskStore I K R) :=
  (s.task i).bind fun o => (TaskObject.execute traits throws o s.memory).map fun res =>
    { s with task := Function.update s.task i (some res.1), memory := res.2 }

def moveAssign (s : TaskStore I K R) (i src : I) : Option (TaskStore I K R) :=
  if i = src then some s
  else (s.clear traits i).bind fun s => (s.task i).bind fun o => s.moveFrom traits i src o.mBuffer

/-- No result where the source would use a callable that is not there. -/
def apply (s : TaskStore I K R) : TaskOp I K R → Option (TaskStore I K R)
  | .construct i => some (s.setTask i (some {}))
  | .build i t r b => some (s.build traits i t r b)
  | .moveConstruct i src => s.moveFrom traits i src .raw
  | .moveAssign i src => s.moveAssign traits i src
  | .execute i throws => s.execute traits i throws
  | .clear i => s.clear traits i
  | .destruct i => (s.clear traits i).map fun s => s.setTask i none

def step (s : TaskStore I K R) (op : TaskOp I K R) : Option (TaskStore I K R) :=
  if s.may op then s.apply traits op else none

end TaskStore

def TaskSteps {I K R : Type} [DecidableEq I] [DecidableEq K] [DecidableEq R]
    (traits : K → CallableTraits) (s : TaskStore I K R) (op : TaskOp I K R) (s' : TaskStore I K R) :
    Prop :=
  s.step traits op = some s'

/-! ## What has become of a callable -/

def TaskEvent.token {R : Type} : TaskEvent R → R
  | .resume r _ | .destroyFrame r | .call r | .destruct r | .abandon r => r

section Held

variable {I K R : Type} [DecidableEq I] [DecidableEq K] [DecidableEq R]
variable (traits : K → CallableTraits)

def TaskObject.held (heap : Nat → Option (Callable K R)) (o : TaskObject K R) :
    Option (CallableType K × R) :=
  o.mVtable.bind fun t =>
    (match o.mBuffer, (t.traits traits).isInlinable with
      | .object c, true => c.content
      | .pointer (some b), false => (heap b).bind Callable.content
      | _, _ => none).map fun r => (t, r)

def TaskObject.block (o : TaskObject K R) : Option Nat :=
  o.mVtable.bind fun t =>
    match o.mBuffer, (t.traits traits).isInlinable with
    | .pointer b, false => b
    | _, _ => none

namespace TaskStore

/-- The callable that the task holds, with its token. -/
def held (s : TaskStore I K R) (i : I) : Option (CallableType K × R) :=
  (s.task i).bind (TaskObject.held traits s.memory.heap)

/-- The block that the task points to. -/
def block (s : TaskStore I K R) (i : I) : Option Nat :=
  (s.task i).bind (TaskObject.block traits)

end TaskStore

/-- What has happened to the callable with the token `r`. -/
def TaskStore.about (s : TaskStore I K R) (r : R) : List (TaskEvent R) :=
  s.memory.events.filter fun e => decide (e.token = r)

/-- The operation ends the callable of the task `i`, and what happens to it. -/
inductive TaskOp.Ends : TaskOp I K R → I → CallableType K → R → List (TaskEvent R) → Prop
  | execute {i : I} {throws : Bool} {t : CallableType K} {r : R} :
      Ends (.execute i throws) i t r (t.executed throws r)
  | clear {i : I} {t : CallableType K} {r : R} : Ends (.clear i) i t r [t.cleared traits r]
  | destruct {i : I} {t : CallableType K} {r : R} : Ends (.destruct i) i t r [t.cleared traits r]
  | moveAssign {i src : I} {t : CallableType K} {r : R} : i ≠ src →
      Ends (.moveAssign i src) i t r [t.cleared traits r]

/-- The blocks whose callable is untouched. -/
def TaskStore.live (s : TaskStore I K R) : Set Nat :=
  {b | ∃ t r, s.memory.heap b = some ⟨t, some r⟩ ∧ s.about r = []}

/-- What holds of the tasks of a program. `held` and `block` tell what each task holds. -/
structure TasksOk (s : TaskStore I K R) (held : I → Option (CallableType K × R))
    (block : I → Option Nat) : Prop where
  holds : ∀ i o, s.task i = some o → Holds traits s.memory.heap o (held i) (block i)
  absent : ∀ i, s.task i = none → held i = none ∧ block i = none
  callables : Owned {x | x ∈ s.built ∧ s.about x.2 = []} held
  blocks : Owned s.live block
  /-- A block is in use for a callable that is untouched, or that has thrown. -/
  heap : ∀ b c, s.memory.heap b = some c → ∃ t r, c = ⟨t, some r⟩ ∧ (t, r) ∈ s.built ∧
    (t.traits traits).isInlinable = false ∧ (s.about r = [] ∨ s.about r = t.executed true r)
  thrown : ∀ t r, (t, r) ∈ s.built → s.about r = t.executed true r →
    (t.traits traits).isInlinable = false → ∃ b, s.memory.heap b = some ⟨t, some r⟩
  distinct : (s.built.map (·.2)).Nodup
  tokens : ∀ e ∈ s.memory.events, e.token ∈ s.built.map (·.2)

/-- The destructor of the callable has run, as far as there was something left for it to do. -/
def CallableType.Destroyed (t : CallableType K) (r : R) (events : List (TaskEvent R)) : Prop :=
  match t with
  | .coroutineHandleFunctor => .resume r false ∈ events ∨ .destroyFrame r ∈ events
  | .awaitViaFunctor => .resume r false ∈ events ∨ .resume r true ∈ events
  | .other _ => .destruct r ∈ events

/-- Every block in use is held by a task, and every callable that no task holds any more was
destroyed, unless its destructor does nothing. -/
def NoLeak (s : TaskStore I K R) : Prop :=
  (∀ b, s.memory.heap b ≠ none → ∃ i, s.block traits i = some b) ∧
    ∀ t r, (t, r) ∈ s.built → (∀ i, s.held traits i ≠ some (t, r)) →
      (t.traits traits).triviallyDestructible = false → t.Destroyed r s.memory.events

/-- The operation calls no callable that throws and must be destroyed. -/
def TaskStore.NoThrow (s : TaskStore I K R) (op : TaskOp I K R) : Prop :=
  ∀ i k, op = .execute i true → s.holdsType i = some (.other k) →
    (traits k).makeVtable.destroyFn = false

end Held

namespace TaskOwnershipLemmas

variable {I K R : Type} [DecidableEq I] [DecidableEq K] [DecidableEq R] {traits : K → CallableTraits}
variable {s s' : TaskStore I K R} {held : I → Option (CallableType K × R)} {block : I → Option Nat}
variable {heap heap' : Nat → Option (Callable K R)} {m : TaskMemory K R} {o : TaskObject K R}
variable {i : I} {t : CallableType K} {r : R}

/-! ### The free store -/

omit [DecidableEq K] [DecidableEq R] in
/-- A task sees nothing of the other blocks. -/
theorem holds_frame {x : Option (CallableType K × R)} {y : Option Nat} (h : Holds traits heap o x y)
    (hsame : ∀ b, y = some b → heap' b = heap b) : Holds traits heap' o x y := by
  cases h with
  | empty => exact .empty
  | inlined hinline => exact .inlined hinline
  | allocated hallocated hheap => exact .allocated hallocated ((hsame _ rfl).trans hheap)

omit [DecidableEq K] [DecidableEq R] in
theorem heap_free {y : Option Nat} {b : Nat} (hb : y ≠ some b) : (m.free y).heap b = m.heap b := by
  cases y with
  | none => rfl
  | some c => exact Function.update_of_ne (fun heq : b = c => hb (by rw [heq])) ..

omit [DecidableEq K] [DecidableEq R] in
theorem heap_of_free {y : Option Nat} {b : Nat} {c : Callable K R} (hb : (m.free y).heap b = some c) :
    y ≠ some b ∧ m.heap b = some c := by
  have hne : y ≠ some b := by
    rintro rfl
    simp [TaskMemory.free] at hb
  exact ⟨hne, by rwa [heap_free hne] at hb⟩

omit [DecidableEq K] [DecidableEq R] in
theorem heap_put_self {b : Nat} {c : Callable K R} : (m.put c (some b)).heap b = some c :=
  Function.update_self ..

omit [DecidableEq K] [DecidableEq R] in
theorem heap_put_of_ne {b b' : Nat} {c : Callable K R} (hne : b' ≠ b) :
    (m.put c (some b)).heap b' = m.heap b' :=
  Function.update_of_ne hne ..

omit [DecidableEq K] [DecidableEq R] in
/-- A new block takes the place of none. -/
theorem heap_put_mono {y : Option Nat} {b b' : Nat} {c c' : Callable K R} (hb : m.heap b = none)
    (hy : y = none ∨ y = some b) (hc : m.heap b' = some c) : (m.put c' y).heap b' = some c := by
  rcases hy with rfl | rfl
  · exact hc
  · rw [heap_put_of_ne, hc]
    rintro rfl
    exact nomatch hb.symm.trans hc

omit [DecidableEq K] [DecidableEq R] in
theorem heap_put_cases {y : Option Nat} {b : Nat} {c c' : Callable K R}
    (hc : (m.put c' y).heap b = some c) : m.heap b = some c ∨ y = some b ∧ c = c' := by
  cases y with
  | none => exact .inl hc
  | some b' =>
    rcases eq_or_ne b b' with rfl | hne
    · rw [heap_put_self] at hc
      exact .inr ⟨rfl, (Option.some.inj hc).symm⟩
    · rw [heap_put_of_ne hne] at hc
      exact .inl hc

omit [DecidableEq I] [DecidableEq K] [DecidableEq R] in
theorem executed_ne_nil {throws : Bool} : t.executed throws r ≠ [] := by
  cases t <;> simp [CallableType.executed]

/-! ### What an operation does to what the tasks hold -/

omit [DecidableEq K] in
/-- A task that holds nothing comes to life or dies. -/
theorem ok_setTask (h : TasksOk traits s held block) (hheld : held i = none) (hblock : block i = none)
    {u : Option (TaskObject K R)} (hu : ∀ o, u = some o → o.mVtable = none) :
    TasksOk traits (s.setTask i u) held block where
  holds j o hj := by
    simp only [TaskStore.setTask] at hj
    rcases eq_or_ne j i with rfl | hne
    · rw [Function.update_self] at hj
      obtain ⟨buffer, vtable⟩ := o
      obtain rfl : vtable = none := hu _ hj
      rw [hheld, hblock]
      exact .empty
    · rw [Function.update_of_ne hne] at hj
      exact h.holds j o hj
  absent j hj := by
    simp only [TaskStore.setTask] at hj
    rcases eq_or_ne j i with rfl | hne
    · exact ⟨hheld, hblock⟩
    · rw [Function.update_of_ne hne] at hj
      exact h.absent j hj
  callables := h.callables
  blocks := h.blocks
  heap := h.heap
  thrown := h.thrown
  distinct := h.distinct
  tokens := h.tokens

omit [DecidableEq K] in
/-- Two tasks exchange what they hold. -/
theorem ok_swap {src : I} {new old : TaskObject K R} (h : TasksOk traits s held block)
    (hnew : Holds traits s.memory.heap new (held src) (block src))
    (hold : Holds traits s.memory.heap old (held i) (block i)) :
    TasksOk traits
      { s with task := Function.update (Function.update s.task src (some old)) i (some new) }
      (held ∘ Equiv.swap i src) (block ∘ Equiv.swap i src) where
  holds j o hj := by
    simp only at hj
    rcases eq_or_ne j i with rfl | hji
    · rw [Function.update_self, Option.some.injEq] at hj
      simpa [← hj] using hnew
    rw [Function.update_of_ne hji] at hj
    rcases eq_or_ne j src with rfl | hjsrc
    · rw [Function.update_self, Option.some.injEq] at hj
      simpa [← hj] using hold
    rw [Function.update_of_ne hjsrc] at hj
    simpa [Equiv.swap_apply_of_ne_of_ne hji hjsrc] using h.holds j o hj
  absent j hj := by
    simp only at hj
    rcases eq_or_ne j i with rfl | hji
    · rw [Function.update_self] at hj
      cases hj
    rw [Function.update_of_ne hji] at hj
    rcases eq_or_ne j src with rfl | hjsrc
    · rw [Function.update_self] at hj
      cases hj
    rw [Function.update_of_ne hjsrc] at hj
    simpa [Equiv.swap_apply_of_ne_of_ne hji hjsrc] using h.absent j hj
  callables := h.callables.comp_equiv _
  blocks := h.blocks.comp_equiv _
  heap := h.heap
  thrown := h.thrown
  distinct := h.distinct
  tokens := h.tokens

omit [DecidableEq I] [DecidableEq K] in
/-- A token is built into one callable. -/
theorem type_unique (h : TasksOk traits s held block) {t t' : CallableType K} (ht : (t, r) ∈ s.built)
    (ht' : (t', r) ∈ s.built) : t = t' :=
  congrArg Prod.fst (List.inj_on_of_nodup_map h.distinct ht ht' rfl)

omit [DecidableEq K] in
/-- The task `i` changes, and the others see nothing of it. -/
theorem holds_update {x : Option (CallableType K × R)} {y : Option Nat}
    (h : TasksOk traits s held block) (ho : Holds traits heap o x y)
    (hframe : ∀ j, j ≠ i → ∀ b, block j = some b → heap b = s.memory.heap b) (j : I)
    (u : TaskObject K R) (hj : Function.update s.task i (some o) j = some u) :
    Holds traits heap u (Function.update held i x j) (Function.update block i y j) := by
  rcases eq_or_ne j i with rfl | hne
  · rw [Function.update_self, Option.some.injEq] at hj
    rw [Function.update_self, Function.update_self, ← hj]
    exact ho
  · rw [Function.update_of_ne hne] at hj
    rw [Function.update_of_ne hne, Function.update_of_ne hne]
    exact holds_frame (h.holds j u hj) (hframe j hne)

omit [DecidableEq K] in
theorem absent_update {x : Option (CallableType K × R)} {y : Option Nat}
    (h : TasksOk traits s held block) (j : I) (hj : Function.update s.task i (some o) j = none) :
    Function.update held i x j = none ∧ Function.update block i y j = none := by
  rcases eq_or_ne j i with rfl | hne
  · rw [Function.update_self] at hj
    cases hj
  · rw [Function.update_of_ne hne] at hj
    rw [Function.update_of_ne hne, Function.update_of_ne hne]
    exact h.absent j hj

omit [DecidableEq I] [DecidableEq K] in
theorem about_fresh (h : TasksOk traits s held block) (hr : r ∉ s.built.map (·.2)) :
    s.about r = [] := by
  refine List.filter_eq_nil_iff.mpr fun e he heq => hr ?_
  rw [← of_decide_eq_true heq]
  exact h.tokens e he

omit [DecidableEq I] [DecidableEq K] in
theorem about_append {es : List (TaskEvent R)} (hnone : s.about r = [])
    (hevents : s'.memory.events = s.memory.events ++ es) (htokens : ∀ e ∈ es, e.token = r) (r' : R) :
    s'.about r' = if r' = r then es else s.about r' := by
  simp only [TaskStore.about] at hnone ⊢
  rw [hevents, List.filter_append]
  split_ifs with heq
  · subst heq
    rw [hnone, List.nil_append]
    exact List.filter_eq_self.mpr fun e he => decide_eq_true (htokens e he)
  · have hother : (es.filter fun e => decide (e.token = r')) = [] :=
      List.filter_eq_nil_iff.mpr fun e he => by simpa [htokens e he] using Ne.symm heq
    rw [hother, List.append_nil]

omit [DecidableEq I] [DecidableEq K] in
/-- A block that a task points to is in use for the callable that the task holds. -/
theorem held_of_block {b : Nat} (h : TasksOk traits s held block) (hb : block i = some b) :
    ∃ t r, held i = some (t, r) ∧ s.memory.heap b = some ⟨t, some r⟩ := by
  cases hi : s.task i with
  | none => exact nomatch (h.absent i hi).2.symm.trans hb
  | some o =>
    have hholds := h.holds i o hi
    rw [hb] at hholds
    cases hheld : held i with
    | none =>
      rw [hheld] at hholds
      cases hholds
    | some x =>
      obtain ⟨t, r⟩ := x
      rw [hheld] at hholds
      cases hholds with
      | allocated _ hheap => exact ⟨t, r, rfl, hheap⟩

omit [DecidableEq I] [DecidableEq K] in
/-- A callable that is not in the buffer of its task is in a block. -/
theorem heap_of_held (h : TasksOk traits s held block) (hheld : held i = some (t, r))
    (hallocated : (t.traits traits).isInlinable = false) :
    ∃ b, s.memory.heap b = some ⟨t, some r⟩ := by
  cases hi : s.task i with
  | none => exact nomatch (h.absent i hi).1.symm.trans hheld
  | some o =>
    have hholds := h.holds i o hi
    rw [hheld] at hholds
    generalize block i = y at hholds
    cases hholds with
    | inlined hinline => exact nomatch hinline.symm.trans hallocated
    | allocated _ hheap => exact ⟨_, hheap⟩

omit [DecidableEq I] [DecidableEq K] in
/-- The block of an untouched callable is the one of the task that holds it. -/
theorem block_of_heap {b : Nat} (h : TasksOk traits s held block) (hheld : held i = some (t, r))
    {t' : CallableType K} (hb : s.memory.heap b = some ⟨t', some r⟩) : block i = some b := by
  obtain ⟨j, hj⟩ := h.blocks.ref_of_live ⟨t', r, hb, (h.callables.live_of_ref hheld).2⟩
  obtain ⟨u, q, hu, hheap⟩ := held_of_block h hj
  cases hheap.symm.trans hb
  obtain rfl := type_unique h (h.callables.live_of_ref hu).1 (h.callables.live_of_ref hheld).1
  rwa [h.callables.unique hheld hu]

omit [DecidableEq I] [DecidableEq K] in
/-- A block in use for another callable is not the one of the task. -/
theorem block_ne {r' : R} {b : Nat} {t' : CallableType K} (h : TasksOk traits s held block)
    (hheld : held i = some (t, r)) (hb : s.memory.heap b = some ⟨t', some r'⟩) (hne : r' ≠ r) :
    block i ≠ some b := by
  intro hi
  obtain ⟨u, q, hu, hq⟩ := held_of_block h hi
  cases hu.symm.trans hheld
  cases hq.symm.trans hb
  exact hne rfl

/-! ### The end of a callable -/

/-- `es` has happened to the callable `r`, and its block `y` is free unless its call has thrown. -/
structure Ended (s s' : TaskStore I K R) (r : R) (y : Option Nat) (es : List (TaskEvent R))
    (throws : Bool) : Prop where
  built : s'.built = s.built
  about : ∀ r', s'.about r' = if r' = r then es else s.about r'
  kept : ∀ {b c}, s'.memory.heap b = some c → s.memory.heap b = some c
  own : ∀ {b c}, s'.memory.heap b = some c → y = some b → throws = true
  other : ∀ {b}, y ≠ some b → s'.memory.heap b = s.memory.heap b
  thrown : throws = true → s'.memory.heap = s.memory.heap

omit [DecidableEq I] [DecidableEq K] in
theorem ended_memory (task : I → Option (TaskObject K R)) (throws : Bool) (y : Option Nat)
    {es : List (TaskEvent R)} (hnone : s.about r = []) (htokens : ∀ e ∈ es, e.token = r) :
    Ended s { s with
      task
      memory := { (if throws then s.memory else s.memory.free y) with
        events := s.memory.events ++ es } } r y es throws where
  built := rfl
  about := about_append hnone rfl htokens
  kept {b c} hb := by
    cases throws with
    | true => exact hb
    | false => exact (heap_of_free hb).2
  own {b c} hb hy := by
    cases throws with
    | true => rfl
    | false => exact absurd hy (heap_of_free hb).1
  other {b} hy := by
    cases throws with
    | true => rfl
    | false => exact heap_free hy
  thrown ht := by
    subst ht
    rfl

section Ended

variable {es : List (TaskEvent R)} {throws : Bool}

omit [DecidableEq I] [DecidableEq K] in
theorem callables_ended (h : TasksOk traits s held block) (hheld : held i = some (t, r))
    (hend : Ended s s' r (block i) es throws) (hne : es ≠ []) :
    {x | x ∈ s'.built ∧ s'.about x.2 = []} = {x | x ∈ s.built ∧ s.about x.2 = []} \ {(t, r)} := by
  have hbuilt := (h.callables.live_of_ref hheld).1
  ext ⟨t', r'⟩
  simp only [hend.about, hend.built, Set.mem_ofPred_eq, Set.mem_sdiff, Set.mem_singleton_iff,
    Prod.mk.injEq, not_and]
  split_ifs with heq
  · subst heq
    exact ⟨fun hx => absurd hx.2 hne, fun hx => absurd rfl (hx.2 (type_unique h hx.1.1 hbuilt))⟩
  · exact ⟨fun hx => ⟨hx, fun _ => heq⟩, fun hx => hx.1⟩

omit [DecidableEq I] [DecidableEq K] in
theorem live_ended (h : TasksOk traits s held block) (hheld : held i = some (t, r))
    (hend : Ended s s' r (block i) es throws) (hne : es ≠ []) :
    s'.live = s.live \ {b | block i = some b} := by
  ext b
  constructor
  · rintro ⟨t', r', hb, hr'⟩
    rw [hend.about] at hr'
    split_ifs at hr' with heq
    · exact absurd hr' hne
    · exact ⟨⟨t', r', hend.kept hb, hr'⟩, block_ne h hheld (hend.kept hb) heq⟩
  · rintro ⟨⟨t', r', hb, hr'⟩, hi⟩
    refine ⟨t', r', (hend.other hi).trans hb, ?_⟩
    rw [hend.about, if_neg, hr']
    rintro rfl
    exact hi (block_of_heap h hheld hb)

omit [DecidableEq I] [DecidableEq K] in
/-- A block that is still in use for the callable shows that it has thrown. -/
theorem heap_ended (h : TasksOk traits s held block) (hheld : held i = some (t, r))
    (hend : Ended s s' r (block i) es throws) (hes : throws = true → es = t.executed true r)
    {b : Nat} {c : Callable K R} (hb : s'.memory.heap b = some c) :
    ∃ t' r', c = ⟨t', some r'⟩ ∧ (t', r') ∈ s'.built ∧ (t'.traits traits).isInlinable = false ∧
      (s'.about r' = [] ∨ s'.about r' = t'.executed true r') := by
  obtain ⟨t', r', rfl, hx, hallocated, hends⟩ := h.heap b c (hend.kept hb)
  refine ⟨t', r', rfl, hend.built ▸ hx, hallocated, ?_⟩
  rw [hend.about]
  split_ifs with heq
  · subst heq
    obtain rfl := type_unique h hx (h.callables.live_of_ref hheld).1
    exact .inr (hes (hend.own hb (block_of_heap h hheld (hend.kept hb))))
  · exact hends

omit [DecidableEq I] [DecidableEq K] in
/-- A callable that has thrown from a block is still there. -/
theorem thrown_ended (h : TasksOk traits s held block) (hheld : held i = some (t, r))
    (hend : Ended s s' r (block i) es throws)
    (hes : throws = false → (t.traits traits).isInlinable = false → es ≠ t.executed true r)
    {t' : CallableType K} {r' : R} (hx : (t', r') ∈ s'.built)
    (hends : s'.about r' = t'.executed true r')
    (hallocated : (t'.traits traits).isInlinable = false) :
    ∃ b, s'.memory.heap b = some ⟨t', some r'⟩ := by
  rw [hend.built] at hx
  rw [hend.about] at hends
  split_ifs at hends with heq
  · subst heq
    obtain rfl := type_unique h hx (h.callables.live_of_ref hheld).1
    cases hthrows : throws with
    | false => exact absurd hends (hes hthrows hallocated)
    | true =>
      rw [hend.thrown hthrows]
      exact heap_of_held h hheld hallocated
  · obtain ⟨b, hb⟩ := h.thrown t' r' hx hends hallocated
    exact ⟨b, (hend.other (block_ne h hheld hb heq)).trans hb⟩

end Ended

omit [DecidableEq K] in
/-- The callable of the task `i` ends: it is called or destroyed, and its block is freed unless the
call throws. -/
theorem ok_end (throws : Bool) {es : List (TaskEvent R)} (h : TasksOk traits s held block)
    (hheld : held i = some (t, r)) (ho : o.mVtable = none) (htokens : ∀ e ∈ es, e.token = r)
    (hne : es ≠ []) (hthrown : throws = true → es = t.executed true r)
    (hes : throws = false → (t.traits traits).isInlinable = false → es ≠ t.executed true r) :
    TasksOk traits
      { s with
        task := Function.update s.task i (some o)
        memory := { (if throws then s.memory else s.memory.free (block i)) with
          events := s.memory.events ++ es } }
      (Function.update held i none) (Function.update block i none) := by
  obtain ⟨hbuilt, hnone⟩ := h.callables.live_of_ref hheld
  have hend := ended_memory (Function.update s.task i (some o)) throws (block i) hnone htokens
  constructor
  case holds =>
    obtain ⟨buffer, vtable⟩ := o
    obtain rfl : vtable = none := ho
    exact holds_update h .empty fun j hj b hb => hend.other fun hi => hj (h.blocks.unique hb hi)
  case absent => exact absent_update h
  case callables =>
    rw [callables_ended h hheld hend hne]
    exact h.callables.release hheld
  case blocks =>
    rw [live_ended h hheld hend hne]
    exact h.blocks.giveBack i
  case heap => exact fun b c hb => heap_ended h hheld hend hthrown hb
  case thrown =>
    exact fun t' r' hx hends hallocated => thrown_ended h hheld hend hes hx hends hallocated
  case distinct => exact h.distinct
  case tokens =>
    intro e he
    rcases List.mem_append.mp he with he | he
    · exact h.tokens e he
    · rw [htokens e he]
      exact List.mem_map_of_mem hbuilt

omit [DecidableEq K] in
/-- The task `i` is built with a new callable. -/
theorem ok_acquire {y : Option Nat} {b : Nat} (h : TasksOk traits s held block)
    (hi : s.task i = none) (hr : r ∉ s.built.map (·.2)) (hb : s.memory.heap b = none)
    (hy : y = none ∨ y = some b)
    (ho : Holds traits (s.memory.put ⟨t, some r⟩ y).heap o (some (t, r)) y) :
    TasksOk traits
      { task := Function.update s.task i (some o)
        memory := s.memory.put ⟨t, some r⟩ y
        built := s.built ++ [(t, r)] }
      (Function.update held i (some (t, r))) (Function.update block i y) := by
  generalize hs' : ({
    task := Function.update s.task i (some o)
    memory := s.memory.put ⟨t, some r⟩ y
    built := s.built ++ [(t, r)] } : TaskStore I K R) = s'
  have htask : s'.task = Function.update s.task i (some o) := by rw [← hs']
  have hmore : s'.built = s.built ++ [(t, r)] := by rw [← hs']
  have hevents : s'.memory.events = s.memory.events := by
    rw [← hs']
    cases y <;> rfl
  have hsame : ∀ r', s'.about r' = s.about r' := by
    intro r'
    simp only [TaskStore.about, hevents]
  have hfresh : s.about r = [] := about_fresh h hr
  have hmemory : s'.memory = s.memory.put ⟨t, some r⟩ y := by rw [← hs']
  have hheap : ∀ {b' c}, s.memory.heap b' = some c → s'.memory.heap b' = some c := fun hc => by
    rw [hmemory]
    exact heap_put_mono hb hy hc
  have hcases : ∀ {b' c}, s'.memory.heap b' = some c →
      s.memory.heap b' = some c ∨ y = some b' ∧ c = ⟨t, some r⟩ := fun hc => by
    rw [hmemory] at hc
    exact heap_put_cases hc
  constructor
  case holds =>
    intro j u hj
    rw [htask] at hj
    rw [hmemory]
    refine holds_update h ho (fun j _ c hc => ?_) j u hj
    obtain ⟨u, q, -, hheld⟩ := held_of_block h hc
    rw [hheld, ← hmemory]
    exact hheap hheld
  case absent =>
    intro j hj
    rw [htask] at hj
    exact absent_update h j hj
  case callables =>
    have hset : {x | x ∈ s'.built ∧ s'.about x.2 = []} =
        insert (t, r) {x | x ∈ s.built ∧ s.about x.2 = []} := by
      ext x
      simp only [hsame, hmore, Set.mem_ofPred_eq, Set.mem_insert_iff, List.mem_append,
        List.mem_singleton]
      constructor
      · rintro ⟨hx | hx, hnone⟩
        · exact .inr ⟨hx, hnone⟩
        · exact .inl hx
      · rintro (rfl | ⟨hx, hnone⟩)
        · exact ⟨.inr rfl, hfresh⟩
        · exact ⟨.inl hx, hnone⟩
    rw [hset]
    exact h.callables.acquire (h.absent i hi).1 fun hx => hr (List.mem_map_of_mem hx.1)
  case blocks =>
    rcases hy with rfl | rfl
    · have hlive : s'.live = s.live := by
        simp only [TaskStore.live, hsame, hmemory]
        rfl
      rw [hlive]
      exact h.blocks.drop_none (h.absent i hi).2
    · have hlive : s'.live = insert b s.live := by
        ext b'
        constructor
        · rintro ⟨t', r', hc, hnone⟩
          rw [hsame] at hnone
          rcases hcases hc with hold | ⟨hb', -⟩
          · exact .inr ⟨t', r', hold, hnone⟩
          · exact .inl (Option.some.inj hb').symm
        · rintro (rfl | ⟨t', r', hc, hnone⟩)
          · refine ⟨t, r, ?_, (hsame r).trans hfresh⟩
            rw [hmemory, heap_put_self]
          · exact ⟨t', r', hheap hc, (hsame r').trans hnone⟩
      rw [hlive]
      refine h.blocks.acquire (h.absent i hi).2 ?_
      rintro ⟨t', r', hc, -⟩
      exact nomatch hb.symm.trans hc
  case heap =>
    intro b' c hc
    rw [hmore]
    rcases hcases hc with hold | ⟨hy', rfl⟩
    · obtain ⟨t', r', rfl, hx, hallocated, hends⟩ := h.heap b' c hold
      exact ⟨t', r', rfl, List.mem_append_left _ hx, hallocated, by rwa [hsame]⟩
    · rw [hy'] at ho
      cases ho with
      | allocated hallocated =>
        exact ⟨t, r, rfl, List.mem_append_right _ (List.mem_singleton_self _), hallocated,
          .inl ((hsame r).trans hfresh)⟩
  case thrown =>
    intro t' r' hx hends hallocated
    rw [hsame] at hends
    rw [hmore] at hx
    rcases List.mem_append.mp hx with hx | hx
    · obtain ⟨b', hb'⟩ := h.thrown t' r' hx hends hallocated
      exact ⟨b', hheap hb'⟩
    · cases List.mem_singleton.mp hx
      exact absurd (hends.symm.trans hfresh) executed_ne_nil
  case distinct =>
    rw [hmore]
    simp only [List.map_append, List.map_cons, List.map_nil]
    exact List.nodup_append.mpr ⟨h.distinct, List.nodup_singleton r, by
      rintro x hx y hy rfl
      exact hr (List.mem_singleton.mp hy ▸ hx)⟩
  case tokens =>
    intro e he
    rw [hevents] at he
    rw [hmore, List.map_append]
    exact List.mem_append_left _ (h.tokens e he)

omit [DecidableEq K] in
theorem ok_build {b : Nat} (h : TasksOk traits s held block) (hi : s.task i = none)
    (hr : r ∉ s.built.map (·.2)) (hb : s.memory.heap b = none) :
    ∃ held' block', TasksOk traits (s.build traits i t r b) held' block' := by
  obtain ⟨o, y, hbuild, ho, hy⟩ := build_spec traits t r b s.memory
  have hs : s.build traits i t r b =
      { task := Function.update s.task i (some o)
        memory := s.memory.put ⟨t, some r⟩ y
        built := s.built ++ [(t, r)] } := by
    rw [TaskStore.build, hbuild]
  rw [hs]
  exact ⟨_, _, ok_acquire h hi hr hb hy ho⟩

/-! ### What an operation does to the callables -/

/-- The callable of the task `i` may come to an end, and nothing happens to the others. -/
structure Touches (s s' : TaskStore I K R) (held : I → Option (CallableType K × R)) (i : I)
    (es : CallableType K → R → List (TaskEvent R)) : Prop where
  built : s'.built = s.built
  about : ∀ r, s'.about r = s.about r ∨ ∃ t, held i = some (t, r) ∧ s'.about r = es t r

/-- A callable is untouched, or nothing happens to it, or the operation ends it. -/
def Told (traits : K → CallableTraits) (s s' : TaskStore I K R)
    (held : I → Option (CallableType K × R)) (op : TaskOp I K R) : Prop :=
  ∀ t r, (t, r) ∈ s'.built → s'.about r = [] ∨ (t, r) ∈ s.built ∧ s'.about r = s.about r ∨
    ∃ i, held i = some (t, r) ∧ op.Ends traits i t r (s'.about r)

omit [DecidableEq I] [DecidableEq K] in
theorem touches_ended {y : Option Nat} {throws : Bool}
    {es : CallableType K → R → List (TaskEvent R)} (hheld : held i = some (t, r))
    (hend : Ended s s' r y (es t r) throws) : Touches s s' held i es where
  built := hend.built
  about r' := by
    rw [hend.about]
    split_ifs with heq
    · subst heq
      exact .inr ⟨t, hheld, rfl⟩
    · exact .inl rfl

omit [DecidableEq I] [DecidableEq K] in
theorem told_of_touches {op : TaskOp I K R} {es : CallableType K → R → List (TaskEvent R)}
    (h : TasksOk traits s held block) (htouches : Touches s s' held i es)
    (hends : ∀ t r, op.Ends traits i t r (es t r)) : Told traits s s' held op := by
  intro t r hx
  rw [htouches.built] at hx
  rcases htouches.about r with hsame | ⟨t', hheld, hes⟩
  · exact .inr (.inl ⟨hx, hsame⟩)
  · obtain rfl := type_unique h hx (h.callables.live_of_ref hheld).1
    exact .inr (.inr ⟨i, hheld, by rw [hes]; exact hends t r⟩)

omit [DecidableEq I] [DecidableEq K] in
theorem told_of_same {op : TaskOp I K R} (hmemory : s'.memory = s.memory)
    (hbuilt : s'.built = s.built) : Told traits s s' held op := by
  intro t r hx
  rw [hbuilt] at hx
  exact .inr (.inl ⟨hx, by simp only [TaskStore.about, hmemory]⟩)

/-- No destructor that does something was left out. -/
def NoAbandon (traits : K → CallableTraits) (s : TaskStore I K R) : Prop :=
  ∀ r k, .abandon r ∈ s.memory.events → (.other k, r) ∈ s.built →
    (traits k).makeVtable.destroyFn = false

omit [DecidableEq I] [DecidableEq K] [DecidableEq R] in
theorem noAbandon_append (es : List (TaskEvent R)) (hbuilt : s'.built = s.built)
    (hevents : s'.memory.events = s.memory.events ++ es) :
    NoAbandon traits s' ↔ NoAbandon traits s ∧ ∀ r k, .abandon r ∈ es → (.other k, r) ∈ s.built →
      (traits k).makeVtable.destroyFn = false := by
  simp only [NoAbandon, hbuilt, hevents, List.mem_append]
  constructor
  · exact fun hall => ⟨fun r k he => hall r k (.inl he), fun r k he => hall r k (.inr he)⟩
  · rintro ⟨hold, hnew⟩ r k he hx
    exact he.elim (fun he => hold r k he hx) fun he => hnew r k he hx

omit [DecidableEq I] [DecidableEq K] [DecidableEq R] in
theorem noAbandon_of_same (hmemory : s'.memory = s.memory) (hbuilt : s'.built = s.built) :
    NoAbandon traits s' ↔ NoAbandon traits s := by
  rw [NoAbandon, NoAbandon, hmemory, hbuilt]

omit [DecidableEq K] [DecidableEq R] in
theorem token_cleared : (t.cleared traits r).token = r := by
  cases t with
  | coroutineHandleFunctor | awaitViaFunctor => rfl
  | other k =>
    simp only [CallableType.cleared]
    split <;> rfl

omit [DecidableEq K] [DecidableEq R] in
theorem token_executed {throws : Bool} : ∀ e ∈ t.executed throws r, e.token = r := by
  cases t <;> cases throws <;> simp [CallableType.executed, TaskEvent.token]

omit [DecidableEq K] [DecidableEq R] in
/-- `clear` leaves a destructor out only where it does nothing. -/
theorem abandon_cleared {r' : R} (h : t.cleared traits r = .abandon r') :
    r' = r ∧ ∃ k, t = .other k ∧ (traits k).makeVtable.destroyFn = false := by
  cases t with
  | coroutineHandleFunctor | awaitViaFunctor => cases h
  | other k =>
    cases hdestroy : (traits k).makeVtable.destroyFn <;>
      simp [CallableType.cleared, hdestroy] at h
    exact ⟨h.symm, k, rfl, hdestroy⟩

omit [DecidableEq K] [DecidableEq R] in
/-- A callable in a block is destroyed unless its call throws. -/
theorem not_thrown (hallocated : (t.traits traits).isInlinable = false) :
    [t.cleared traits r] ≠ t.executed true r ∧ t.executed false r ≠ t.executed true r := by
  cases t with
  | coroutineHandleFunctor | awaitViaFunctor => cases hallocated
  | other k => simp [CallableType.executed]

/-! ### The operations -/

omit [DecidableEq K] [DecidableEq R] in
theorem holds_none {y : Option Nat} (h : Holds traits heap o none y) : y = none ∧ o.mVtable = none := by
  cases h
  exact ⟨rfl, rfl⟩

omit [DecidableEq K] [DecidableEq R] in
theorem vtable_of_holds {y : Option Nat} (h : Holds traits heap o (some (t, r)) y) :
    o.mVtable = some t := by
  cases h <;> rfl

theorem moveFrom_ok {src : I} (buffer : TaskBuffer K R) (h : TasksOk traits s held block)
    (hsrc : s.task src ≠ none) (hheld : held i = none) (hblock : block i = none) :
    ∃ s' held' block', s.moveFrom traits i src buffer = some s' ∧ TasksOk traits s' held' block' ∧
      s'.memory = s.memory ∧ s'.built = s.built := by
  obtain ⟨rhs, hrhs⟩ := Option.ne_none_iff_exists'.mp hsrc
  obtain ⟨new, old, hbuild, hnew, hold⟩ := buildFrom_spec buffer (h.holds src rhs hrhs)
  have hold : Holds traits s.memory.heap old (held i) (block i) := by
    rw [hheld, hblock]
    exact hold
  refine ⟨_, held ∘ Equiv.swap i src, block ∘ Equiv.swap i src, ?_, ok_swap h hnew hold, rfl, rfl⟩
  simp only [TaskStore.moveFrom, hrhs, hbuild, Option.bind_some, Option.map_some]

omit [DecidableEq K] [DecidableEq R] in
theorem alive_update {u : TaskObject K R} (hi : s.task i = some o) (j : I) :
    Function.update s.task i (some u) j = none ↔ s.task j = none := by
  rcases eq_or_ne j i with rfl | hne
  · simp [hi]
  · rw [Function.update_of_ne hne]

theorem clear_ok (h : TasksOk traits s held block) (hi : s.task i = some o) :
    ∃ s' held' block', s.clear traits i = some s' ∧ TasksOk traits s' held' block' ∧
      held' i = none ∧ block' i = none ∧ (∀ j, s'.task j = none ↔ s.task j = none) ∧
      (NoAbandon traits s' ↔ NoAbandon traits s) ∧
      Touches s s' held i fun t r => [t.cleared traits r] := by
  have hholds := h.holds i o hi
  cases hheld : held i with
  | none =>
    rw [hheld] at hholds
    have hclear : s.clear traits i = some s := by
      have hsame : Function.update s.task i (some o) = s.task := by rw [← hi, Function.update_eq_self]
      simp only [TaskStore.clear, hi, Option.bind_some, clear_none hholds, Option.map_some, hsame]
    exact ⟨s, held, block, hclear, h, hheld, (holds_none hholds).1, fun _ => .rfl, .rfl, rfl,
      fun _ => .inl rfl⟩
  | some x =>
    obtain ⟨t, r⟩ := x
    rw [hheld] at hholds
    obtain ⟨old, hclear, hold⟩ := clear_spec hholds
    have htokens : ∀ e ∈ [t.cleared traits r], e.token = r := by simp [token_cleared]
    have hnone := (h.callables.live_of_ref hheld).2
    refine ⟨_, _, _, ?_, ok_end false h hheld hold htokens (by simp) (by simp)
        fun _ hallocated => (not_thrown hallocated).1,
      Function.update_self .., Function.update_self .., alive_update hi, ?_,
      touches_ended hheld (ended_memory _ false _ hnone htokens)⟩
    · simp only [TaskStore.clear, hi, Option.bind_some, hclear, Option.map_some]
      rfl
    · refine Iff.trans (noAbandon_append (s := s) [t.cleared traits r] rfl rfl)
        ⟨And.left, fun hkept => ⟨hkept, ?_⟩⟩
      intro r' k he hx
      obtain ⟨rfl, k', rfl, hdestroy⟩ := abandon_cleared (List.mem_singleton.mp he).symm
      cases type_unique h hx (h.callables.live_of_ref hheld).1
      exact hdestroy

omit [DecidableEq I] [DecidableEq K] in
/-- A call keeps every destructor that does something unless it throws. -/
theorem noAbandon_executed {throws : Bool} (h : TasksOk traits s held block) (hi : s.task i = some o)
    (hheld : held i = some (t, r)) (hthrows : throws = true → ∃ k, t = .other k) :
    (∀ r' k, .abandon r' ∈ t.executed throws r → (.other k, r') ∈ s.built →
        (traits k).makeVtable.destroyFn = false) ↔ s.NoThrow traits (.execute i throws) := by
  have hholds := h.holds i o hi
  rw [hheld] at hholds
  have htype : s.holdsType i = some t := by
    simp [TaskStore.holdsType, hi, vtable_of_holds hholds]
  have hbuilt := (h.callables.live_of_ref hheld).1
  cases throws with
  | false =>
    refine iff_of_true (fun r' k he => ?_) (fun j k hop => by cases hop)
    cases t <;> simp [CallableType.executed] at he
  | true =>
    obtain ⟨k, rfl⟩ := hthrows rfl
    constructor
    · rintro hall j k' hop hj
      cases hop
      cases htype.symm.trans hj
      exact hall r k (by simp [CallableType.executed]) hbuilt
    · intro hno r' k' he hx
      obtain rfl : r' = r := by simpa [CallableType.executed] using he
      cases type_unique h hx hbuilt
      exact hno i k rfl htype

omit [DecidableEq K] in
theorem execute_ok {throws : Bool} (h : TasksOk traits s held block) (hi : s.task i = some o)
    (hthrows : throws = true → ∃ k, s.holdsType i = some (.other k)) :
    ∃ s' held' block', s.execute traits i throws = some s' ∧ TasksOk traits s' held' block' ∧
      (NoAbandon traits s' ↔ NoAbandon traits s ∧ s.NoThrow traits (.execute i throws)) ∧
      Touches s s' held i fun t r => t.executed throws r := by
  have hholds := h.holds i o hi
  cases hheld : held i with
  | none =>
    rw [hheld] at hholds
    have htype : s.holdsType i = none := by
      simp [TaskStore.holdsType, hi, (holds_none hholds).2]
    have hexecute : s.execute traits i throws = some s := by
      have hsame : Function.update s.task i (some o) = s.task := by rw [← hi, Function.update_eq_self]
      simp only [TaskStore.execute, hi, Option.bind_some, execute_none hholds, Option.map_some, hsame]
    refine ⟨s, held, block, hexecute, h, iff_self_and.mpr fun _ j k hop hj => ?_, rfl,
      fun _ => .inl rfl⟩
    cases hop
    rw [htype] at hj
    cases hj
  | some x =>
    obtain ⟨t, r⟩ := x
    rw [hheld] at hholds
    have htype : s.holdsType i = some t := by
      simp [TaskStore.holdsType, hi, vtable_of_holds hholds]
    have hother : throws = true → ∃ k, t = .other k := by
      intro ht
      obtain ⟨k, hk⟩ := hthrows ht
      exact ⟨k, Option.some.inj (htype.symm.trans hk)⟩
    obtain ⟨old, hexecute, hold⟩ := execute_spec hholds hother
    have hnone := (h.callables.live_of_ref hheld).2
    have htokens : ∀ e ∈ t.executed throws r, e.token = r := token_executed
    have hne : t.executed throws r ≠ [] := executed_ne_nil
    refine ⟨_, _, _, ?_, ok_end throws h hheld hold htokens hne ?_ ?_, ?_,
      touches_ended hheld (ended_memory _ throws _ hnone htokens)⟩
    · simp only [TaskStore.execute, hi, Option.bind_some, hexecute, Option.map_some]
    · rintro rfl
      rfl
    · rintro rfl hallocated
      exact (not_thrown hallocated).2
    · refine Iff.trans (noAbandon_append (s := s) (t.executed throws r) rfl rfl)
        (and_congr_right fun _ => ?_)
      exact noAbandon_executed h hi hheld hother

omit [DecidableEq K] [DecidableEq R] in
theorem events_build {b : Nat} : (s.build traits i t r b).memory.events = s.memory.events := by
  obtain ⟨o, y, hbuild, -⟩ := build_spec traits t r b s.memory
  rw [TaskStore.build, hbuild]
  cases y <;> rfl

omit [DecidableEq K] in
theorem noAbandon_build {b : Nat} (h : TasksOk traits s held block) (hr : r ∉ s.built.map (·.2)) :
    NoAbandon traits (s.build traits i t r b) ↔ NoAbandon traits s := by
  have hbuilt : (s.build traits i t r b).built = s.built ++ [(t, r)] := rfl
  simp only [NoAbandon, events_build, hbuilt, List.mem_append, List.mem_singleton, Prod.mk.injEq]
  refine ⟨fun hall r' k he hx => hall r' k he (.inl hx), ?_⟩
  rintro hall r' k he (hx | ⟨-, rfl⟩)
  · exact hall r' k he hx
  · exact absurd (h.tokens _ he) hr

/-- Every operation is defined and keeps the invariant. -/
theorem apply_ok {op : TaskOp I K R} (h : TasksOk traits s held block) (hmay : s.may op = true) :
    ∃ s' held' block', s.apply traits op = some s' ∧ TasksOk traits s' held' block' ∧
      (NoAbandon traits s' ↔ NoAbandon traits s ∧ s.NoThrow traits op) ∧
      Told traits s s' held op := by
  have hquiet : (∀ i, op ≠ .execute i true) → ∀ {s' : TaskStore I K R},
      (NoAbandon traits s' ↔ NoAbandon traits s) →
        (NoAbandon traits s' ↔ NoAbandon traits s ∧ s.NoThrow traits op) := fun hop _ hsame =>
    hsame.trans (iff_self_and.mpr fun _ i k heq => absurd heq (hop i))
  cases op with
  | construct i =>
    have hi : s.task i = none := by simpa [TaskStore.may] using hmay
    obtain ⟨hheld, hblock⟩ := h.absent i hi
    exact ⟨_, _, _, rfl, ok_setTask h hheld hblock (by simp), hquiet (by simp) .rfl,
      told_of_same rfl rfl⟩
  | build i t r b =>
    have hcond : (s.task i = none ∧ r ∉ s.built.map (·.2)) ∧ s.memory.heap b = none := by
      simpa [TaskStore.may] using hmay
    obtain ⟨held', block', hok⟩ := ok_build (t := t) h hcond.1.1 hcond.1.2 hcond.2
    refine ⟨_, held', block', rfl, hok, hquiet (by simp) (noAbandon_build h hcond.1.2), ?_⟩
    intro t' r' hx
    have hsame : (s.build traits i t r b).about r' = s.about r' := by
      simp only [TaskStore.about, events_build]
    rw [hsame]
    rcases List.mem_append.mp hx with hx | hx
    · exact .inr (.inl ⟨hx, rfl⟩)
    · cases List.mem_singleton.mp hx
      exact .inl (about_fresh h hcond.1.2)
  | moveConstruct i src =>
    have hcond : s.task i = none ∧ s.task src ≠ none := by
      simpa [TaskStore.may, Option.isSome_iff_ne_none] using hmay
    obtain ⟨hheld, hblock⟩ := h.absent i hcond.1
    obtain ⟨s', held', block', hmove, hok, hmemory, hbuilt⟩ :=
      moveFrom_ok .raw h hcond.2 hheld hblock
    exact ⟨s', held', block', hmove, hok, hquiet (by simp) (noAbandon_of_same hmemory hbuilt),
      told_of_same hmemory hbuilt⟩
  | moveAssign i src =>
    have hcond : s.task i ≠ none ∧ s.task src ≠ none := by
      simpa [TaskStore.may, Option.isSome_iff_ne_none] using hmay
    by_cases heq : i = src
    · exact ⟨s, held, block, if_pos heq, h, hquiet (by simp) .rfl, told_of_same rfl rfl⟩
    obtain ⟨o, hi⟩ := Option.ne_none_iff_exists'.mp hcond.1
    obtain ⟨s₁, held₁, block₁, hclear, hok₁, hheld, hblock, halive, hkept, htouches⟩ := clear_ok h hi
    have hsrc : s₁.task src ≠ none := fun hnone => hcond.2 ((halive src).mp hnone)
    obtain ⟨o₁, hi₁⟩ := Option.ne_none_iff_exists'.mp fun hnone => hcond.1 ((halive i).mp hnone)
    obtain ⟨s', held', block', hmove, hok, hmemory, hbuilt⟩ :=
      moveFrom_ok o₁.mBuffer hok₁ hsrc hheld hblock
    have hmoved : Touches s s' held i fun t r => [t.cleared traits r] := by
      refine ⟨hbuilt.trans htouches.built, fun r => ?_⟩
      have hsame : s'.about r = s₁.about r := by simp only [TaskStore.about, hmemory]
      rw [hsame]
      exact htouches.about r
    refine ⟨s', held', block', ?_, hok,
      hquiet (by simp) ((noAbandon_of_same hmemory hbuilt).trans hkept),
      told_of_touches h hmoved fun _ _ => .moveAssign heq⟩
    simp only [TaskStore.apply, TaskStore.moveAssign, if_neg heq, hclear, Option.bind_some, hi₁, hmove]
  | execute i throws =>
    have hcond : s.task i ≠ none ∧ (throws = true → ∃ k, s.holdsType i = some (.other k)) := by
      simp only [TaskStore.may, Bool.and_eq_true, Option.isSome_iff_ne_none, Bool.or_eq_true,
        Bool.not_eq_true'] at hmay
      refine ⟨hmay.1, fun ht => ?_⟩
      rcases hmay.2 with hf | hother
      · rw [ht] at hf
        cases hf
      · split at hother
        · exact ⟨_, by assumption⟩
        · cases hother
    obtain ⟨o, hi⟩ := Option.ne_none_iff_exists'.mp hcond.1
    obtain ⟨s', held', block', hexecute, hok, hkept, htouches⟩ := execute_ok h hi hcond.2
    exact ⟨s', held', block', hexecute, hok, hkept, told_of_touches h htouches fun _ _ => .execute⟩
  | clear i =>
    have hcond : s.task i ≠ none := by
      simpa [TaskStore.may, Option.isSome_iff_ne_none] using hmay
    obtain ⟨o, hi⟩ := Option.ne_none_iff_exists'.mp hcond
    obtain ⟨s', held', block', hclear, hok, -, -, -, hkept, htouches⟩ := clear_ok h hi
    exact ⟨s', held', block', hclear, hok, hquiet (by simp) hkept,
      told_of_touches h htouches fun _ _ => .clear⟩
  | destruct i =>
    have hcond : s.task i ≠ none := by
      simpa [TaskStore.may, Option.isSome_iff_ne_none] using hmay
    obtain ⟨o, hi⟩ := Option.ne_none_iff_exists'.mp hcond
    obtain ⟨s', held', block', hclear, hok, hheld, hblock, -, hkept, htouches⟩ := clear_ok h hi
    have hdied : Touches s (s'.setTask i none) held i fun t r => [t.cleared traits r] :=
      ⟨htouches.built, htouches.about⟩
    refine ⟨_, held', block', by rw [TaskStore.apply, hclear, Option.map_some],
      ok_setTask hok hheld hblock (by simp), hquiet (by simp) hkept,
      told_of_touches h hdied fun _ _ => .destruct⟩

/-! ### Runs -/

omit [DecidableEq I] [DecidableEq K] in
theorem ok_init : TasksOk traits (.init : TaskStore I K R) (fun _ => none) (fun _ => none) where
  holds _ _ h := by cases h
  absent _ _ := ⟨rfl, rfl⟩
  callables := by
    have hnone : {x | x ∈ (TaskStore.init : TaskStore I K R).built ∧
        (TaskStore.init : TaskStore I K R).about x.2 = []} = ∅ := by
      ext x
      simp [TaskStore.init]
    rw [hnone]
    exact Owned.empty
  blocks := by
    have hnone : (TaskStore.init : TaskStore I K R).live = ∅ := by
      ext b
      simp [TaskStore.init, TaskStore.live]
    rw [hnone]
    exact Owned.empty
  heap _ _ h := by cases h
  thrown _ _ h := by cases h
  distinct := List.nodup_nil
  tokens _ h := by cases h

/-- Some record of what the tasks hold is right. -/
def Ok (traits : K → CallableTraits) (s : TaskStore I K R) : Prop :=
  ∃ held block, TasksOk traits s held block

omit [DecidableEq I] [DecidableEq K] in
/-- The record is what the tasks hold. -/
theorem held_eq (h : TasksOk traits s held block) : s.held traits = held ∧ s.block traits = block := by
  have hboth : ∀ i, s.held traits i = held i ∧ s.block traits i = block i := by
    intro i
    cases hi : s.task i with
    | none =>
      obtain ⟨hheld, hblock⟩ := h.absent i hi
      simp [TaskStore.held, TaskStore.block, hi, hheld, hblock]
    | some o =>
      have hholds := h.holds i o hi
      generalize held i = x at hholds ⊢
      generalize block i = y at hholds ⊢
      simp only [TaskStore.held, TaskStore.block, hi, Option.bind_some]
      cases hholds with
      | empty => exact ⟨rfl, rfl⟩
      | inlined hinline => simp [TaskObject.held, TaskObject.block, hinline]
      | allocated hallocated hheap =>
        simp [TaskObject.held, TaskObject.block, hallocated, hheap]
  exact ⟨funext fun i => (hboth i).1, funext fun i => (hboth i).2⟩

theorem step_ok {op : TaskOp I K R} (h : Ok traits s) (hstep : TaskSteps traits s op s') :
    Ok traits s' ∧ (NoAbandon traits s' ↔ NoAbandon traits s ∧ s.NoThrow traits op) ∧
      Told traits s s' (s.held traits) op := by
  obtain ⟨held, block, hok⟩ := h
  simp only [TaskSteps, TaskStore.step] at hstep
  split_ifs at hstep with hmay
  obtain ⟨s'', held', block', happly, hok', hkept, htold⟩ := apply_ok hok hmay
  obtain rfl : s'' = s' := Option.some.inj (happly.symm.trans hstep)
  rw [(held_eq hok).1]
  exact ⟨⟨held', block', hok'⟩, hkept, htold⟩

section Run

variable {tr : List (TaskStore I K R × TaskOp I K R × TaskStore I K R)}

theorem run_ok (h : Run (TaskSteps traits) .init tr s) : Ok traits s :=
  h.inv_all ⟨_, _, ok_init⟩ fun hI hstep => (step_ok hI hstep).1

theorem noAbandon_run (h : Run (TaskSteps traits) .init tr s) :
    NoAbandon traits s ↔ Meets (TaskStore.NoThrow traits) tr := by
  induction h with
  | nil => exact iff_of_true (fun r k he => by cases he) fun _ ht => by cases ht
  | snoc hrun hstep ih =>
    rw [Run.meets_snoc, ← ih]
    exact (step_ok (run_ok hrun) hstep).2.1

/-- A callable is untouched, or a step of the run has ended it. -/
theorem ended_run (h : Run (TaskSteps traits) .init tr s) :
    ∀ t r, (t, r) ∈ s.built → s.about r = [] ∨
      ∃ u ∈ tr, ∃ i, u.1.held traits i = some (t, r) ∧ u.2.1.Ends traits i t r (s.about r) := by
  induction h with
  | nil =>
    intro t r hx
    cases hx
  | snoc hrun hstep ih =>
    intro t r hx
    rcases (step_ok (run_ok hrun) hstep).2.2 t r hx with hnone | ⟨hx, hsame⟩ | ⟨i, hheld, hends⟩
    · exact .inl hnone
    · rw [hsame]
      refine (ih t r hx).imp_right ?_
      rintro ⟨u, hu, hended⟩
      exact ⟨u, List.mem_append_left _ hu, hended⟩
    · exact .inr ⟨_, List.mem_append_right _ (List.mem_singleton_self _), i, hheld, hends⟩

end Run

omit [DecidableEq I] [DecidableEq K] [DecidableEq R] in
theorem events_of_ends {op : TaskOp I K R} {es : List (TaskEvent R)} (h : op.Ends traits i t r es) :
    es = [t.cleared traits r] ∨ ∃ throws, es = t.executed throws r := by
  cases h with
  | execute => exact .inr ⟨_, rfl⟩
  | clear | destruct | moveAssign => exact .inl rfl

omit [DecidableEq K] [DecidableEq R] in
/-- A destructor that does something is left out only by a call that throws. -/
theorem destroyed_of_ends {es : List (TaskEvent R)}
    (h : es = [t.cleared traits r] ∨ ∃ throws, es = t.executed throws r)
    (hneeds : (t.traits traits).triviallyDestructible = false)
    (hthrown : ∀ k, t = .other k → es ≠ t.executed true r) : t.Destroyed r es := by
  cases t with
  | coroutineHandleFunctor | awaitViaFunctor =>
    rcases h with rfl | ⟨throws, rfl⟩ <;>
      simp [CallableType.Destroyed, CallableType.cleared, CallableType.executed]
  | other k =>
    rcases h with rfl | ⟨throws, rfl⟩
    · have hneeds : (traits k).triviallyDestructible = false := hneeds
      simp [CallableType.Destroyed, CallableType.cleared, CallableTraits.makeVtable, hneeds]
    · cases throws with
      | true => exact absurd rfl (hthrown k rfl)
      | false => simp [CallableType.Destroyed, CallableType.executed]

omit [DecidableEq I] [DecidableEq K] in
theorem mem_about {e : TaskEvent R} : e ∈ s.about r ↔ e ∈ s.memory.events ∧ e.token = r := by
  simp [TaskStore.about]

omit [DecidableEq K] [DecidableEq R] in
theorem destroyed_mono {es es' : List (TaskEvent R)} (h : t.Destroyed r es) (hsub : es ⊆ es') :
    t.Destroyed r es' := by
  cases t with
  | coroutineHandleFunctor | awaitViaFunctor => exact h.imp (hsub ·) (hsub ·)
  | other k => exact hsub h

omit [DecidableEq I] [DecidableEq K] in
/-- What the tasks hold tells the same as the events. -/
theorem noLeak_iff (h : TasksOk traits s held block)
    (hended : ∀ t r, (t, r) ∈ s.built → s.about r = [] ∨ s.about r = [t.cleared traits r] ∨
      ∃ throws, s.about r = t.executed throws r) :
    NoLeak traits s ↔ NoAbandon traits s := by
  rw [NoLeak, (held_eq h).1, (held_eq h).2]
  constructor
  · rintro ⟨hblocks, hdestroyed⟩ r k he hx
    have habandon : .abandon r ∈ s.about r := mem_about.mpr ⟨he, rfl⟩
    rcases hended _ r hx with hnone | hcleared | ⟨throws, hexecuted⟩
    · rw [hnone] at habandon
      cases habandon
    · rw [hcleared] at habandon
      obtain ⟨-, k', hk, hdestroy⟩ := abandon_cleared (List.mem_singleton.mp habandon).symm
      cases hk
      exact hdestroy
    · obtain rfl : throws = true := by
        rw [hexecuted] at habandon
        cases throws with
        | true => rfl
        | false => simp [CallableType.executed] at habandon
      cases hinline : (traits k).isInlinable with
      | false =>
        -- its block is in use, and no task holds it
        obtain ⟨b, hb⟩ := h.thrown _ r hx hexecuted hinline
        obtain ⟨i, hi⟩ := hblocks b (by simp [hb])
        obtain ⟨t, q, hheld, hq⟩ := held_of_block h hi
        cases hb.symm.trans hq
        have hnone := (h.callables.live_of_ref hheld).2
        exact absurd (hexecuted.symm.trans hnone) executed_ne_nil
      | true =>
        cases htrivial : (traits k).triviallyDestructible with
        | true => simp [CallableTraits.makeVtable, htrivial, hinline]
        | false =>
          have hunheld : ∀ i, held i ≠ some (.other k, r) := fun i hheld =>
            absurd (hexecuted.symm.trans (h.callables.live_of_ref hheld).2) executed_ne_nil
          have hdestruct : .destruct r ∈ s.about r :=
            mem_about.mpr ⟨hdestroyed _ r hx hunheld htrivial, rfl⟩
          rw [hexecuted] at hdestruct
          simp [CallableType.executed] at hdestruct
  · intro hkept
    -- a call that throws would leave a destructor out
    have hthrown : ∀ {k r}, (.other k, r) ∈ s.built →
        s.about r = (CallableType.other k).executed true r →
        (traits k).makeVtable.destroyFn = false := by
      intro k r hx hexecuted
      have habandon : .abandon r ∈ s.about r := by
        rw [hexecuted]
        simp [CallableType.executed]
      exact hkept r k (mem_about.mp habandon).1 hx
    constructor
    · intro b hb
      obtain ⟨c, hc⟩ := Option.ne_none_iff_exists'.mp hb
      obtain ⟨t, r, rfl, hx, hallocated, hnone | hexecuted⟩ := h.heap b c hc
      · exact h.blocks.ref_of_live ⟨t, r, hc, hnone⟩
      · cases t with
        | coroutineHandleFunctor | awaitViaFunctor => cases hallocated
        | other k =>
          have hallocated : (traits k).isInlinable = false := hallocated
          have hdestroy := hthrown hx hexecuted
          simp [CallableTraits.makeVtable, hallocated] at hdestroy
    · intro t r hx hunheld hneeds
      rcases hended t r hx with hnone | hends
      · obtain ⟨i, hi⟩ := h.callables.ref_of_live ⟨hx, hnone⟩
        exact absurd hi (hunheld i)
      · refine destroyed_mono (destroyed_of_ends hends hneeds ?_) (List.filter_subset_self _)
        rintro k rfl hexecuted
        have hdestroy := hthrown hx hexecuted
        have hneeds : (traits k).triviallyDestructible = false := hneeds
        simp [CallableTraits.makeVtable, hneeds] at hdestroy

end TaskOwnershipLemmas

/-! ## Every program -/

section Programs

variable {I K R : Type} [DecidableEq I] [DecidableEq K] [DecidableEq R] {traits : K → CallableTraits}
variable {s : TaskStore I K R} {tr : List (TaskStore I K R × TaskOp I K R × TaskStore I K R)}

open TaskOwnershipLemmas

/-- Whatever a program does with its tasks, no operation uses a callable that is not there, the
tasks match one to one with the callables to which nothing has happened and with the blocks that
such a callable lies in, and every other callable was ended by one operation on the task that held
it. -/
theorem callables_once (h : Run (TaskSteps traits) .init tr s) :
    (∀ op, s.may op = true → ∃ s', s.step traits op = some s') ∧
      Owned {x | x ∈ s.built ∧ s.about x.2 = []} (s.held traits) ∧
      Owned s.live (s.block traits) ∧
      ∀ t r, (t, r) ∈ s.built → s.about r = [] ∨
        ∃ u ∈ tr, ∃ i, u.1.held traits i = some (t, r) ∧ u.2.1.Ends traits i t r (s.about r) := by
  obtain ⟨held, block, hok⟩ := run_ok h
  obtain ⟨hheld, hblock⟩ := held_eq hok
  rw [hheld, hblock]
  refine ⟨fun op hmay => ?_, hok.callables, hok.blocks, ended_run h⟩
  obtain ⟨s', -, -, happly, -⟩ := apply_ok hok hmay
  exact ⟨s', by rw [TaskStore.step, if_pos hmay, happly]⟩

/-- A coroutine of a task that was moved is resumed when the task is called, another as
interrupted. -/
theorem callables_once_resumed : ∃ tr s,
    Run (TaskSteps fun _ : Unit => ⟨false, 100, false, false⟩) (.init : TaskStore Nat Unit Nat) tr s ∧
      s.about 7 = [.resume 7 false] ∧ s.about 8 = [.resume 8 true] ∧
      ∀ i, s.held (fun _ => ⟨false, 100, false, false⟩) i ≠ some (.awaitViaFunctor, 7) := by
  obtain ⟨tr, s, hrun, -, hview⟩ := exists_run (TaskStore.step fun _ => ⟨false, 100, false, false⟩)
    (R := TaskSteps fun _ => ⟨false, 100, false, false⟩) id (.init : TaskStore Nat Unit Nat)
    [.build 0 .awaitViaFunctor 7 0, .build 1 .awaitViaFunctor 8 0, .moveConstruct 2 0, .moveAssign 1 2,
      .execute 1 false, .destruct 1]
    (fun r => (r.2.about 7, r.2.about 8)) (v := ([.resume 7 false], [.resume 8 true])) (by decide)
  obtain ⟨hcalled, hinterrupted⟩ := Prod.mk.inj hview
  refine ⟨tr, s, hrun, hcalled, hinterrupted, fun i hi => ?_⟩
  have huntouched := ((callables_once hrun).2.1.live_of_ref hi).2
  rw [hcalled] at huntouched
  cases huntouched

/-- Every block in use is held by a task, and every callable that is held no more was destroyed, if
and only if no callable throws that lies in a block or needs a destructor. -/
theorem leak_iff (h : Run (TaskSteps traits) .init tr s) :
    NoLeak traits s ↔ Meets (TaskStore.NoThrow traits) tr := by
  obtain ⟨held, block, hok⟩ := run_ok h
  refine (noLeak_iff hok fun t r hx => (ended_run h t r hx).imp_right ?_).trans (noAbandon_run h)
  rintro ⟨u, -, i, -, hends⟩
  exact events_of_ends hends

/-- A call that throws leaves the block of its callable in use, and no task holds it. -/
theorem leak_iff_block : ∃ tr s,
    Run (TaskSteps fun _ : Unit => ⟨false, 100, false, false⟩) (.init : TaskStore Unit Unit Nat) tr s ∧
      (s.memory.heap 3).isSome ∧
      ¬ Meets (TaskStore.NoThrow fun _ => ⟨false, 100, false, false⟩) tr := by
  obtain ⟨tr, s, hrun, -, hview⟩ := exists_run (TaskStore.step fun _ => ⟨false, 100, false, false⟩)
    (R := TaskSteps fun _ => ⟨false, 100, false, false⟩) id (.init : TaskStore Unit Unit Nat)
    [.build () (.other ()) 7 3, .execute () true]
    (fun r => ((r.2.memory.heap 3).isSome, r.2.block (fun _ => ⟨false, 100, false, false⟩) ()))
    (v := (true, none)) (by decide)
  obtain ⟨hheap, hblock⟩ := Prod.mk.inj hview
  refine ⟨tr, s, hrun, hheap, fun hmeets => ?_⟩
  obtain ⟨i, hi⟩ := ((leak_iff hrun).mpr hmeets).1 3 (Option.isSome_iff_ne_none.mp hheap)
  exact nomatch hblock.symm.trans hi

end Programs

end FlavoEngine.Engine

import FlavoEngine.Core.Soa
import FlavoEngine.Lib.Ownership
import FlavoEngine.Lib.Run

/-!
# Who owns the blocks of the `soa` objects

Programs run the operations of `soa` on any number of objects in any order. `World` is the free
store and the live objects, `Op` one operation and `Step` what it may do, with every answer the
allocator may give.

Results:
1. `Sound`: the representation invariant. Objects and live blocks match one to one, an object has
   no block exactly when it has no elements, and no `delete[]` was applied to a dead block.
   `sound_step`: every operation that meets `SafeStep` keeps it.
2. `soa_ownership_iff`: a run has the ownership property in every state it visits if and only if
   all its operations meet `SafeStep`: `destroy()`, and a `resize` that ends with no new block,
   run only on objects without a block.
3. `soa_double_free`: `resize(1)`, `destroy()` and the destructor free one block twice.
-/

namespace FlavoEngine.Core

open FlavoEngine.Lib

/-- The name of a `soa` object. -/
abbrev Obj := Nat

/-- The free store and the `soa` objects that are alive. -/
structure World where
  heap : Heap
  objs : Obj → Option Soa

/-- One operation of a program on its `soa` objects. `a` is what the allocator answers. An
assignment names the object that its by-value parameter `src` is constructed in. -/
inductive Op where
  | construct (o : Obj)
  | copyConstruct (o src : Obj) (a : Option Block)
  | moveConstruct (o src : Obj)
  | assignCopy (o par src : Obj) (a : Option Block)
  | assignMove (o par src : Obj)
  | swap (lhs rhs : Obj)
  | resize (o : Obj) (numElements : UInt64) (a : Option Block)
  | destroy (o : Obj)
  | destruct (o : Obj)

namespace World

/-- Nothing has run yet. -/
def init (byte : Addr → UInt8) : World :=
  { heap := .empty byte, objs := fun _ => none }

def construct (w : World) (o : Obj) : Option World :=
  match w.objs o with
  | some _ => none
  | none => some { w with objs := Function.update w.objs o (some {}) }

/-- When the copy throws, no object comes to life. -/
def copyConstruct (w : World) (o src : Obj) (a : Option Block) : Option World :=
  match w.objs o, w.objs src with
  | none, some s =>
    match s.copyConstruct w.heap a with
    | none => some w
    | some (t, h) => some { heap := h, objs := Function.update w.objs o (some t) }
  | _, _ => none

def moveConstruct (w : World) (o src : Obj) : Option World :=
  match w.objs o, w.objs src with
  | none, some s =>
    some { w with
      objs := Function.update (Function.update w.objs src (some s.moveConstruct.2)) o
        (some s.moveConstruct.1) }
  | _, _ => none

def swap (w : World) (lhs rhs : Obj) : Option World :=
  match w.objs lhs, w.objs rhs with
  | some s, some t =>
    some { w with
      objs := Function.update (Function.update w.objs lhs (some (s.swap t).1)) rhs
        (some (s.swap t).2) }
  | _, _ => none

def resize (types : List CppType) (w : World) (o : Obj) (n : UInt64) (a : Option Block) :
    Option World :=
  (w.objs o).map fun s =>
    { heap := (s.resize types w.heap n a).1
      objs := Function.update w.objs o (some (s.resize types w.heap n a).2.1) }

def destroy (w : World) (o : Obj) : Option World :=
  (w.objs o).map fun s =>
    { heap := (s.destroy w.heap).1
      objs := Function.update w.objs o (some (s.destroy w.heap).2) }

def destruct (w : World) (o : Obj) : Option World :=
  (w.objs o).map fun s =>
    { heap := s.destruct w.heap, objs := Function.update w.objs o none }

/-- The body of `operator=`, once its parameter is constructed: swap, then the parameter dies. -/
def assign (w : World) (o par : Obj) : Option World :=
  (w.swap o par).bind fun w => w.destruct par

def assignCopy (w : World) (o par src : Obj) (a : Option Block) : Option World :=
  (w.copyConstruct par src a).bind fun w =>
    match w.objs par with
    | none => some w
    | some _ => w.assign o par

def assignMove (w : World) (o par src : Obj) : Option World :=
  (w.moveConstruct par src).bind fun w => w.assign o par

/-- Run one operation; `none` when a program cannot run it here. -/
def apply (types : List CppType) (w : World) : Op → Option World
  | .construct o => w.construct o
  | .copyConstruct o src a => w.copyConstruct o src a
  | .moveConstruct o src => w.moveConstruct o src
  | .assignCopy o par src a => w.assignCopy o par src a
  | .assignMove o par src => w.assignMove o par src
  | .swap lhs rhs => w.swap lhs rhs
  | .resize o n a => w.resize types o n a
  | .destroy o => w.destroy o
  | .destruct o => w.destruct o

/-- The block an object designates. -/
def ref (w : World) (o : Obj) : Option Block :=
  (w.objs o).bind (·.mData)

end World

/-- The allocator may give the answer that the operation carries. -/
def AllocOk (types : List CppType) (w : World) : Op → Prop
  | .copyConstruct _ src a | .assignCopy _ _ src a =>
    ∀ s, w.objs src = some s → w.heap.MayReturn s.mNumElements.toNat a
  | .resize o n a =>
    ∀ s, w.objs o = some s →
      (s.destroy w.heap).1.MayReturn (calculateAllocatedBytes types n).toNat a
  | _ => True

/-- One operation of a program. -/
def Step (types : List CppType) (w : World) (op : Op) (w' : World) : Prop :=
  AllocOk types w op ∧ w.apply types op = some w'

/-! ## The property and its condition -/

/-- What is asked of a state: an object has a null pointer exactly when it has no elements, a
non-null pointer designates a live block that no other object refers to, every `delete[]` so far
was applied to a live block or to a null pointer, and with no object left no block is live. -/
structure OwnershipHolds (w : World) : Prop where
  null_iff : ∀ o s, w.objs o = some s → (s.mData = none ↔ s.mNumElements = 0)
  live : ∀ o s p, w.objs o = some s → s.mData = some p → w.heap.live p ≠ none
  unique : ∀ o s o' s' p, w.objs o = some s → w.objs o' = some s' → s.mData = some p →
    s'.mData = some p → o = o'
  noBadDelete : w.heap.badDelete = false
  noLeak : (∀ o, w.objs o = none) → ∀ p, w.heap.live p = none

/-- The operation does not leave a pointer behind: `destroy()` runs on an object without a block,
and `resize` either runs on one or ends with a new block. -/
def SafeStep (w : World) : Op → Prop
  | .destroy o => ∀ s, w.objs o = some s → s.mData = none
  | .resize o n a => ∀ s, w.objs o = some s → s.mData ≠ none → n ≠ 0 ∧ a ≠ none
  | _ => True

/-- The representation invariant. -/
structure Sound (w : World) : Prop where
  owned : Owned {p | w.heap.live p ≠ none} w.ref
  null_iff : ∀ o s, w.objs o = some s → (s.mData = none ↔ s.mNumElements = 0)
  noBadDelete : w.heap.badDelete = false

namespace SoaOwnershipLemmas

/-! ### The free store -/

theorem deleteArray_live {h : Heap} {p : Block} (hp : h.live p ≠ none) :
    h.deleteArray (some p) = { h with live := Function.update h.live p none } := by
  obtain ⟨size, hsize⟩ := Option.ne_none_iff_exists'.mp hp
  simp [Heap.deleteArray, hsize]

theorem liveSet_update_none {h : Heap} {p : Block} :
    {q | Function.update h.live p none q ≠ none} = {q | h.live q ≠ none} \ {p} := by
  ext q
  by_cases hq : q = p
  · subst hq; simp
  · simp [hq]

theorem liveSet_update_some {h : Heap} {p : Block} {size : Nat} :
    {q | Function.update h.live p (some size) q ≠ none} = insert p {q | h.live q ≠ none} := by
  ext q
  by_cases hq : q = p
  · subst hq; simp
  · simp [hq]

/-! ### References -/

theorem ref_update {w : World} {h : Heap} {o : Obj} {s : Soa} :
    World.ref { heap := h, objs := Function.update w.objs o (some s) } =
      Function.update w.ref o s.mData := by
  funext k
  by_cases hk : k = o
  · subst hk; simp [World.ref]
  · simp [World.ref, Function.update_of_ne hk]

theorem ref_update_none {w : World} {h : Heap} {o : Obj} :
    World.ref { heap := h, objs := Function.update w.objs o none } =
      Function.update w.ref o none := by
  funext k
  by_cases hk : k = o
  · subst hk; simp [World.ref]
  · simp [World.ref, Function.update_of_ne hk]

theorem ref_of_objs {w : World} {o : Obj} {s : Soa} (hs : w.objs o = some s) :
    w.ref o = s.mData := by
  simp [World.ref, hs]

theorem ref_of_none {w : World} {o : Obj} (hs : w.objs o = none) : w.ref o = none := by
  simp [World.ref, hs]

/-- Giving `o` a new value keeps the null-pointer rule when the new value has it. -/
theorem null_iff_update {w : World} {o : Obj} {t : Soa}
    (h : ∀ o s, w.objs o = some s → (s.mData = none ↔ s.mNumElements = 0))
    (ht : t.mData = none ↔ t.mNumElements = 0) :
    ∀ k s, Function.update w.objs o (some t) k = some s →
      (s.mData = none ↔ s.mNumElements = 0) := by
  intro k s hk
  by_cases hko : k = o
  · subst hko
    rw [Function.update_self, Option.some.injEq] at hk
    exact hk ▸ ht
  · rw [Function.update_of_ne hko] at hk
    exact h k s hk

/-- An object `o`, old or new, gets the value `t`. -/
theorem sound_put {w : World} {h : Heap} {o : Obj} {t : Soa} (hw : Sound w)
    (hown : Owned {p | h.live p ≠ none} (Function.update w.ref o t.mData))
    (ht : t.mData = none ↔ t.mNumElements = 0) (hbad : h.badDelete = false) :
    Sound { heap := h, objs := Function.update w.objs o (some t) } where
  owned := by rw [ref_update]; exact hown
  null_iff := null_iff_update hw.null_iff ht
  noBadDelete := hbad

/-- The two objects `i` and `j` exchange their members; `i` may be new. -/
theorem sound_exchange {w : World} {i j : Obj} {s t : Soa} (hw : Sound w)
    (hi : w.ref i = s.mData) (hj : w.objs j = some t)
    (hs : s.mData = none ↔ s.mNumElements = 0) :
    Sound { w with objs := Function.update (Function.update w.objs j (some s)) i (some t) } where
  owned := by
    have hown := hw.owned.exchange j i
    rw [hi, ref_of_objs hj] at hown
    rw [ref_update (w := { w with objs := Function.update w.objs j (some s) }),
      ref_update (w := w)]
    exact hown
  null_iff := null_iff_update (w := { w with objs := Function.update w.objs j (some s) })
    (null_iff_update hw.null_iff hs) (hw.null_iff j t hj)
  noBadDelete := hw.noBadDelete

/-! ### One lemma for each operation -/

theorem sound_construct {w w' : World} {o : Obj} (hw : Sound w) (h : w.construct o = some w') :
    Sound w' := by
  unfold World.construct at h
  split at h
  · exact nomatch h
  · next hnone =>
    cases h
    exact sound_put hw (hw.owned.drop_none (ref_of_none hnone)) (by simp) hw.noBadDelete

/-- A copy has no block, or a fresh one. -/
theorem copyConstruct_spec {h h' : Heap} {src t : Soa} {a : Option Block}
    (hsrc : src.mData = none ↔ src.mNumElements = 0)
    (heq : src.copyConstruct h a = some (t, h')) :
    (t.mData = none ∧ t.mNumElements = 0 ∧ h' = h) ∨
    (∃ p size, a = some p ∧ t.mData = some p ∧ t.mNumElements ≠ 0 ∧
      h'.live = Function.update h.live p (some size) ∧ h'.badDelete = h.badDelete) := by
  unfold Soa.copyConstruct copyRawArray at heq
  cases hdata : src.mData with
  | none =>
    simp only [hdata, Option.map_some, Option.some.injEq, Prod.mk.injEq] at heq
    obtain ⟨rfl, rfl⟩ := heq
    exact .inl ⟨rfl, hsrc.mp hdata, rfl⟩
  | some p =>
    have hnum : src.mNumElements ≠ 0 := fun h0 => by
      rw [hsrc.mpr h0] at hdata
      exact nomatch hdata
    simp only [hdata, if_neg hnum] at heq
    cases a with
    | none => simp [Heap.newArray] at heq
    | some q =>
      simp only [Heap.newArray, Option.map_some, Option.some.injEq, Prod.mk.injEq] at heq
      obtain ⟨rfl, rfl⟩ := heq
      obtain ⟨hlive, hbad⟩ := copyRawArrayLoop_live
        { h with live := Function.update h.live q (some src.mNumElements.toNat) } p q
        src.mNumElements.toNat
      exact .inr ⟨q, src.mNumElements.toNat, rfl, rfl, hnum, hlive, hbad⟩

theorem sound_copyConstruct {w w' : World} {o src : Obj} {a : Option Block} (hw : Sound w)
    (ha : ∀ s, w.objs src = some s → w.heap.MayReturn s.mNumElements.toNat a)
    (h : w.copyConstruct o src a = some w') : Sound w' := by
  unfold World.copyConstruct at h
  split at h
  · next s hnone hsrc =>
    split at h
    · cases h
      exact hw
    · next t h' heq =>
      cases h
      rcases copyConstruct_spec (hw.null_iff src s hsrc) heq with
        ⟨hdata, hnum, rfl⟩ | ⟨p, size, rfl, hdata, hnum, hlive, hbad⟩
      · refine sound_put hw ?_ (by simp [hdata, hnum]) hw.noBadDelete
        rw [hdata]
        exact hw.owned.drop_none (ref_of_none hnone)
      · refine sound_put hw ?_ (by simp [hdata, hnum]) (by rw [hbad]; exact hw.noBadDelete)
        have hfresh : p ∉ {q | w.heap.live q ≠ none} := fun hp => hp (ha s hsrc p rfl).1
        rw [hdata, hlive, liveSet_update_some]
        exact hw.owned.acquire (ref_of_none hnone) hfresh
  · exact nomatch h

theorem sound_moveConstruct {w w' : World} {o src : Obj} (hw : Sound w)
    (h : w.moveConstruct o src = some w') : Sound w' := by
  unfold World.moveConstruct at h
  split at h
  · next s hnone hsrc =>
    cases h
    exact sound_exchange (s := {}) hw (ref_of_none hnone) hsrc (by simp)
  · exact nomatch h

theorem sound_swap {w w' : World} {lhs rhs : Obj} (hw : Sound w)
    (h : w.swap lhs rhs = some w') : Sound w' := by
  unfold World.swap at h
  split at h
  · next s t hs ht =>
    cases h
    exact sound_exchange hw (ref_of_objs ht) hs (hw.null_iff rhs t ht)
  · exact nomatch h

/-- `delete[]` of what an object designates gives the block back. -/
theorem release_spec {w : World} {o : Obj} {s : Soa} (hw : Sound w) (hs : w.objs o = some s) :
    Owned {p | (w.heap.deleteArray s.mData).live p ≠ none} (Function.update w.ref o none) ∧
      (w.heap.deleteArray s.mData).badDelete = false := by
  have href : w.ref o = s.mData := ref_of_objs hs
  cases hdata : s.mData with
  | none =>
    rw [hdata] at href
    exact ⟨hw.owned.drop_none href, hw.noBadDelete⟩
  | some p =>
    rw [hdata] at href
    have hp : w.heap.live p ≠ none := hw.owned.live_of_ref href
    rw [deleteArray_live hp]
    refine ⟨?_, hw.noBadDelete⟩
    rw [liveSet_update_none]
    exact hw.owned.release href

theorem sound_destruct {w w' : World} {o : Obj} (hw : Sound w) (h : w.destruct o = some w') :
    Sound w' := by
  obtain ⟨s, hs, rfl⟩ := Option.map_eq_some_iff.mp h
  obtain ⟨hown, hbad⟩ := release_spec hw hs
  refine ⟨by rw [ref_update_none]; exact hown, ?_, hbad⟩
  intro k t hk
  by_cases hko : k = o
  · subst hko
    simp at hk
  · exact hw.null_iff k t (by simpa [Function.update_of_ne hko] using hk)

theorem sound_destroy {w w' : World} {o : Obj} (hw : Sound w) (hsafe : SafeStep w (.destroy o))
    (h : w.destroy o = some w') : Sound w' := by
  obtain ⟨s, hs, rfl⟩ := Option.map_eq_some_iff.mp h
  have hdata : s.mData = none := hsafe s hs
  obtain ⟨hown, hbad⟩ := release_spec hw hs
  refine sound_put hw ?_ (by simp [Soa.destroy, hdata]) hbad
  simp only [Soa.destroy, hdata] at hown ⊢
  exact hown

/-- `resize` releases the block, then has no block or a fresh one. -/
theorem sound_resize {types : List CppType} {w w' : World} {o : Obj} {n : UInt64}
    {a : Option Block} (hw : Sound w) (hsafe : SafeStep w (.resize o n a))
    (ha : AllocOk types w (.resize o n a)) (h : w.resize types o n a = some w') : Sound w' := by
  obtain ⟨s, hs, rfl⟩ := Option.map_eq_some_iff.mp h
  obtain ⟨hown, hbad⟩ := release_spec hw hs
  by_cases hn : 0 < n
  · cases a with
    | none =>
      -- the allocation throws: the old value had no block
      have hdata : s.mData = none := Classical.byContradiction fun hd => (hsafe s hs hd).2 rfl
      refine sound_put hw ?_ ?_ ?_ <;>
        simp only [Soa.resize, Soa.destroy, if_pos hn, Heap.newArray, hdata] at hown hbad ⊢
      · exact hown
      · exact hbad
    | some p =>
      have hfresh : p ∉ {q | (w.heap.deleteArray s.mData).live q ≠ none} :=
        fun hp => hp (ha s hs p rfl).1
      have hacq := hown.acquire (Function.update_self ..) hfresh
      rw [Function.update_idem] at hacq
      have hn0 : n ≠ 0 := UInt64.pos_iff_ne_zero.mp hn
      refine sound_put hw ?_ ?_ ?_ <;>
        simp only [Soa.resize, Soa.destroy, if_pos hn, Heap.newArray]
      · rw [liveSet_update_some]
        exact hacq
      · simp [hn0]
      · exact hbad
  · -- `resize(0)`: the old value had no block
    have hn0 : n = 0 := by simpa [UInt64.pos_iff_ne_zero] using hn
    have hdata : s.mData = none := Classical.byContradiction fun hd => (hsafe s hs hd).1 hn0
    refine sound_put hw ?_ ?_ ?_ <;>
      simp only [Soa.resize, Soa.destroy, if_neg hn, hdata] at hown hbad ⊢
    · exact hown
    · exact hbad

theorem sound_assign {w w' : World} {o par : Obj} (hw : Sound w)
    (h : w.assign o par = some w') : Sound w' := by
  obtain ⟨w₁, hswap, hdes⟩ := Option.bind_eq_some_iff.mp h
  exact sound_destruct (sound_swap hw hswap) hdes

theorem sound_assignCopy {w w' : World} {o par src : Obj} {a : Option Block} (hw : Sound w)
    (ha : ∀ s, w.objs src = some s → w.heap.MayReturn s.mNumElements.toNat a)
    (h : w.assignCopy o par src a = some w') : Sound w' := by
  obtain ⟨w₁, hcopy, hrest⟩ := Option.bind_eq_some_iff.mp h
  have hw₁ : Sound w₁ := sound_copyConstruct hw ha hcopy
  split at hrest
  · cases hrest
    exact hw₁
  · exact sound_assign hw₁ hrest

theorem sound_assignMove {w w' : World} {o par src : Obj} (hw : Sound w)
    (h : w.assignMove o par src = some w') : Sound w' := by
  obtain ⟨w₁, hmove, hrest⟩ := Option.bind_eq_some_iff.mp h
  exact sound_assign (sound_moveConstruct hw hmove) hrest

theorem sound_init (byte : Addr → UInt8) : Sound (World.init byte) where
  owned := by
    have href : (World.init byte).ref = fun _ => none := rfl
    have hlive : {p | (World.init byte).heap.live p ≠ none} = ∅ := by
      simp [World.init, Heap.empty]
    rw [href, hlive]
    exact Owned.empty
  null_iff _ _ h := nomatch h
  noBadDelete := rfl

/-- What an object that keeps its pointer but loses its elements does to the property. -/
theorem not_holds_of_stale {w : World} {h : Heap} {o : Obj} {s : Soa} (hs : s.mData ≠ none) :
    ¬ OwnershipHolds
      { heap := h, objs := Function.update w.objs o (some { s with mNumElements := 0 }) } :=
  fun hold => hs ((hold.null_iff o { s with mNumElements := 0 } (by simp)).mpr rfl)

/-- An operation that misses `SafeStep` leaves a pointer in an object without elements. -/
theorem not_holds_of_unsafe {types : List CppType} {w w' : World} {op : Op}
    (hsafe : ¬ SafeStep w op) (h : w.apply types op = some w') : ¬ OwnershipHolds w' := by
  cases op with
  | destroy o =>
    obtain ⟨s, hs, rfl⟩ := Option.map_eq_some_iff.mp h
    have hdata : s.mData ≠ none := fun hd =>
      hsafe fun t ht => by rw [hs, Option.some.injEq] at ht; exact ht ▸ hd
    exact not_holds_of_stale hdata
  | resize o n a =>
    obtain ⟨s, hs, rfl⟩ := Option.map_eq_some_iff.mp h
    simp only [SafeStep, hs, Option.some.injEq, forall_eq', Classical.not_imp] at hsafe
    obtain ⟨hdata, hbad⟩ := hsafe
    have hstale : (s.resize types w.heap n a).2.1 = { s with mNumElements := 0 } := by
      by_cases hn : 0 < n
      · have ha : a = none := Classical.byContradiction fun ha =>
          hbad ⟨UInt64.pos_iff_ne_zero.mp hn, ha⟩
        simp [Soa.resize, Soa.destroy, if_pos hn, ha, Heap.newArray]
      · simp [Soa.resize, Soa.destroy, if_neg hn]
    rw [hstale]
    exact not_holds_of_stale hdata
  | construct | copyConstruct | moveConstruct | assignCopy | assignMove | swap | destruct =>
    exact absurd trivial hsafe

end SoaOwnershipLemmas

open SoaOwnershipLemmas

/-- The invariant gives the property. -/
theorem ownershipHolds_of_sound {w : World} (hw : Sound w) : OwnershipHolds w where
  null_iff := hw.null_iff
  live o s p hs hp := hw.owned.live_of_ref (by rw [ref_of_objs hs, hp])
  unique o s o' s' p hs hs' hp hp' :=
    hw.owned.unique (by rw [ref_of_objs hs, hp]) (by rw [ref_of_objs hs', hp'])
  noBadDelete := hw.noBadDelete
  noLeak hnone p := by
    have hempty := hw.owned.none_live fun o => ref_of_none (hnone o)
    by_contra hp
    exact Set.notMem_empty p (hempty ▸ hp)

/-- Every operation that meets `SafeStep` keeps the representation invariant. -/
theorem sound_step {types : List CppType} {w w' : World} {op : Op} (hw : Sound w)
    (hsafe : SafeStep w op) (h : Step types w op w') : Sound w' := by
  obtain ⟨ha, happly⟩ := h
  cases op with
  | construct o => exact sound_construct hw happly
  | copyConstruct o src a => exact sound_copyConstruct hw ha happly
  | moveConstruct o src => exact sound_moveConstruct hw happly
  | assignCopy o par src a => exact sound_assignCopy hw ha happly
  | assignMove o par src => exact sound_assignMove hw happly
  | swap lhs rhs => exact sound_swap hw happly
  | resize o n a => exact sound_resize hw hsafe ha happly
  | destroy o => exact sound_destroy hw hsafe happly
  | destruct o => exact sound_destruct hw happly

/-- A program keeps the ownership property in every state it visits exactly when `destroy()`, and
every `resize` that ends with no new block, runs on an object without a block. -/
theorem soa_ownership_iff (types : List CppType) (byte : Addr → UInt8)
    {tr : List (World × Op × World)} {w : World}
    (h : Run (Step types) (World.init byte) tr w) :
    (OwnershipHolds (World.init byte) ∧ ∀ t ∈ tr, OwnershipHolds t.2.2) ↔ Meets SafeStep tr := by
  have hiff := h.forall_iff (I := Sound) (C := SafeStep) (P := fun _ _ w' => OwnershipHolds w')
    (sound_init byte)
    (fun hw hsafe hstep =>
      ⟨sound_step hw hsafe hstep, ownershipHolds_of_sound (sound_step hw hsafe hstep)⟩)
    (fun _ hunsafe hstep => not_holds_of_unsafe hunsafe hstep.2)
  rw [← hiff]
  exact and_iff_right (ownershipHolds_of_sound (sound_init byte))

/-! ## One block freed twice -/

/-- `soa<uint8_t> s; s.resize(1); s.destroy();` and the destructor of `s`. -/
def freeTwice : List Op := [.construct 0, .resize 0 1 (some page), .destroy 0, .destruct 0]

namespace SoaOwnershipLemmas

theorem resize_page_allocOk {w : World} (hw : w.heap.live = fun _ => none)
    (hs : w.objs 0 = some {}) : AllocOk [uint8Type] w (.resize 0 1 (some page)) := by
  intro s hs' p hp
  rw [hs, Option.some.injEq] at hs'
  subst hs'
  rw [Option.some.injEq] at hp
  subst hp
  simp only [Soa.destroy, Heap.deleteArray, hw]
  exact ⟨trivial, by decide, fun _ _ h => nomatch h⟩

end SoaOwnershipLemmas

/-- `destroy()` leaves `m_Data` behind, so the destructor frees the block a second time. -/
theorem soa_double_free :
    ∃ tr w, Run (Step [uint8Type]) (World.init fun _ => 0) tr w ∧
      tr.map (fun t => t.2.1) = freeTwice ∧ w.heap.badDelete = true ∧
      ¬ ∀ t ∈ tr, OwnershipHolds t.2.2 := by
  have h₁ : Run (Step [uint8Type]) (World.init fun _ => 0) _ _ :=
    Run.snoc (l := Op.construct 0) .nil ⟨trivial, rfl⟩
  have h₂ := Run.snoc (l := Op.resize 0 1 (some page)) h₁ ⟨resize_page_allocOk rfl rfl, rfl⟩
  have h₃ := Run.snoc (l := Op.destroy 0) h₂ ⟨trivial, rfl⟩
  have h₄ := Run.snoc (l := Op.destruct 0) h₃ ⟨trivial, rfl⟩
  refine ⟨_, _, h₄, rfl, rfl, fun hall => ?_⟩
  have hlast := hall _ (List.mem_append_right _ (List.mem_singleton_self _))
  exact absurd hlast.noBadDelete (by decide)

/-- A program that resizes and destructs meets the condition. -/
theorem soa_ownership_iff_resize :
    ∃ tr w, Run (Step [uint8Type]) (World.init fun _ => 0) tr w ∧
      tr.map (fun t => t.2.1) = [.construct 0, .resize 0 1 (some page), .destruct 0] ∧
      ∀ t ∈ tr, OwnershipHolds t.2.2 := by
  have h₁ : Run (Step [uint8Type]) (World.init fun _ => 0) _ _ :=
    Run.snoc (l := Op.construct 0) .nil ⟨trivial, rfl⟩
  have h₂ := Run.snoc (l := Op.resize 0 1 (some page)) h₁ ⟨resize_page_allocOk rfl rfl, rfl⟩
  have h₃ := Run.snoc (l := Op.destruct 0) h₂ ⟨trivial, rfl⟩
  refine ⟨_, _, h₃, rfl, ((soa_ownership_iff [uint8Type] (fun _ => 0) h₃).mpr ?_).2⟩
  refine Run.meets_snoc.mpr ⟨Run.meets_snoc.mpr ⟨Run.meets_snoc.mpr ⟨?_, trivial⟩, ?_⟩, trivial⟩
  · exact fun _ ht => absurd ht List.not_mem_nil
  · exact fun _ _ _ => ⟨by decide, by simp⟩

end FlavoEngine.Core

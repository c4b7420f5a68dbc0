import Mathlib.Algebra.GroupWithZero.Nat
import Mathlib.Logic.Function.Basic

/-!
# The container `ftl::soa`

`kernel/source/core/ftl/soa.h` with `kernel/source/core/utils/raw_array_ops.h`. A `soa` holds one
array for each of its types, all of one element count, one after another in a single block of
bytes.

* The free store is a set of live blocks and the bytes of memory. `delete[]` of a block that is not
  live and an access through a block outside its bytes are recorded, not refused.
* What `new` answers is an argument of each function that allocates: a block, or `none` when it
  throws.
* `size_t`, `uint64_t` and their arithmetic are `UInt64`, so sums and products wrap.
* The copy constructor's first initializer is read as initialising `m_Data`, and `swap` as the
  member-wise exchange of its body.
-/

namespace FlavoEngine.Core

/-! ## The free store -/

/-- An address; `0` is the null pointer. -/
abbrev Addr := Nat

/-- The start of a block on the free store, which is never the null pointer. -/
structure Block where
  addr : Addr
  addr_pos : 0 < addr
deriving DecidableEq, Repr

/-- The free store. -/
structure Heap where
  /-- The size in bytes of each live block. -/
  live : Block → Option Nat
  byte : Addr → UInt8
  /-- A `delete[]` was applied to a block that was not live. -/
  badDelete : Bool
  /-- A block was indexed outside its bytes. -/
  badAccess : Bool

namespace Heap

/-- No block is live. -/
def empty (byte : Addr → UInt8) : Heap :=
  { live := fun _ => none, byte, badDelete := false, badAccess := false }

/-- `delete[] p`. -/
def deleteArray (h : Heap) : Option Block → Heap
  | none => h
  | some p =>
    match h.live p with
    | none => { h with badDelete := true }
    | some _ => { h with live := Function.update h.live p none }

/-- `new uint8_t[size]` with the answer of the allocator; `none` when it throws. -/
def newArray (h : Heap) (size : Nat) : Option Block → Option (Block × Heap)
  | none => none
  | some p => some (p, { h with live := Function.update h.live p (some size) })

/-- The allocator may answer `a` to a request for `size` bytes: it throws, or hands out bytes of
the address space that no live block has. -/
def MayReturn (h : Heap) (size : Nat) (a : Option Block) : Prop :=
  ∀ p, a = some p → h.live p = none ∧ p.addr + size ≤ 2 ^ 64 ∧
    ∀ q s, h.live q = some s → p.addr + size ≤ q.addr ∨ q.addr + s ≤ p.addr

def inBlock (h : Heap) (p : Block) (i : Nat) : Bool :=
  match h.live p with
  | none => false
  | some size => decide (i < size)

/-- `p[i]` as a value. -/
def read (h : Heap) (p : Block) (i : Nat) : UInt8 × Heap :=
  (h.byte (p.addr + i), { h with badAccess := h.badAccess || !h.inBlock p i })

/-- `p[i] = v`. -/
def write (h : Heap) (p : Block) (i : Nat) (v : UInt8) : Heap :=
  { h with byte := Function.update h.byte (p.addr + i) v,
           badAccess := h.badAccess || !h.inBlock p i }

/-- The address lies in some live block. -/
def mapped (h : Heap) (a : Addr) : Bool :=
  (List.range a).any fun q =>
    match h.live ⟨q + 1, Nat.succ_pos q⟩ with
    | none => false
    | some size => decide (a < q + 1 + size)

/-- The `count` bytes at an address, through a pointer of any origin. -/
def load (h : Heap) (a : Addr) (count : Nat) : Option (List UInt8) :=
  if (List.range count).all fun k => h.mapped (a + k) then
    some ((List.range count).map fun k => h.byte (a + k))
  else none

/-- Overwrite the bytes at an address, through a pointer of any origin. -/
def store (h : Heap) (a : Addr) (v : List UInt8) : Option Heap :=
  if (List.range v.length).all fun k => h.mapped (a + k) then
    some { h with byte := fun x => if a ≤ x ∧ x < a + v.length then v.getD (x - a) 0 else h.byte x }
  else none

end Heap

/-! ## `CopyRawArray` -/

/-- The loop of `CopyRawArray`, after `count` rounds. -/
def copyRawArrayLoop (h : Heap) (src dst : Block) : Nat → Heap
  | 0 => h
  | i + 1 =>
    let (v, h) := (copyRawArrayLoop h src dst i).read src i
    h.write dst i v

/-- `CopyRawArray<uint8_t>(src, size)`; `none` when its `new` throws. -/
def copyRawArray (h : Heap) (src : Option Block) (size : UInt64) (a : Option Block) :
    Option (Option Block × Heap) :=
  match src with
  | none => some (none, h)
  | some src =>
    if size = 0 then some (none, h)
    else (h.newArray size.toNat a).map fun r =>
      (some r.1, copyRawArrayLoop r.2 src r.1 size.toNat)

/-! ## Sizes and offsets -/

/-- A type argument of `soa`, with what `sizeof` says of it. -/
structure CppType where
  size : Nat
  size_pos : 0 < size
  size_lt : size < 2 ^ 64

/-- `TYPES_SIZEOF`. -/
def typesSizeof (types : List CppType) : List UInt64 :=
  types.map fun t => UInt64.ofNat t.size

/-- `calculate_allocated_bytes`. -/
def calculateAllocatedBytes (types : List CppType) (numElements : UInt64) : UInt64 :=
  (typesSizeof types).foldl (fun sum curr => sum + curr * numElements) 0

/-- The loop of `calculate_offset_bytes`, after `count` rounds. -/
def offsetLoop (sizes : List UInt64) (numElements : UInt64) : Nat → UInt64
  | 0 => 0
  | prevTypeIndex + 1 =>
    offsetLoop sizes numElements prevTypeIndex + sizes.getD prevTypeIndex 0 * numElements

/-- `calculate_offset_bytes`. -/
def calculateOffsetBytes (types : List CppType) (typeIndex : Fin types.length)
    (elementIndex numElements : UInt64) : UInt64 :=
  offsetLoop (typesSizeof types) numElements typeIndex +
    (typesSizeof types).getD typeIndex 0 * elementIndex

/-! ## The container -/

/-- The two members of a `soa`, with their initializers. -/
structure Soa where
  mData : Option Block := none
  mNumElements : UInt64 := 0
deriving DecidableEq

/-- How a call ends. -/
inductive Exit where
  | normal
  | badAlloc
deriving DecidableEq

namespace Soa

/-- `soa(const soa& src)`; `none` when it throws. -/
def copyConstruct (h : Heap) (src : Soa) (a : Option Block) : Option (Soa × Heap) :=
  (copyRawArray h src.mData src.mNumElements a).map fun r =>
    ({ mData := r.1, mNumElements := src.mNumElements }, r.2)

/-- `swap(lhs, rhs)`: the new `lhs` and the new `rhs`. -/
def swap (lhs rhs : Soa) : Soa × Soa :=
  ({ mData := rhs.mData, mNumElements := rhs.mNumElements },
   { mData := lhs.mData, mNumElements := lhs.mNumElements })

/-- `soa(soa&& src)`: the new object and what is left of `src`. -/
def moveConstruct (src : Soa) : Soa × Soa :=
  swap {} src

/-- `~soa()`. -/
def destruct (h : Heap) (s : Soa) : Heap :=
  h.deleteArray s.mData

/-- `destroy()`. It sets the element count and leaves `m_Data` as it is. -/
def destroy (h : Heap) (s : Soa) : Heap × Soa :=
  (h.deleteArray s.mData, { s with mNumElements := 0 })

/-- `resize(num_elements)`. When `new` throws, `destroy()` has run and nothing was assigned. -/
def resize (types : List CppType) (h : Heap) (s : Soa) (numElements : UInt64)
    (a : Option Block) : Heap × Soa × Exit :=
  let (h, s) := destroy h s
  if 0 < numElements then
    match h.newArray (calculateAllocatedBytes types numElements).toNat a with
    | none => (h, s, .badAlloc)
    | some (p, h) => (h, { mData := some p, mNumElements := numElements }, .normal)
  else (h, s, .normal)

/-- `allocated_size()`. -/
def allocatedSize (types : List CppType) (s : Soa) : UInt64 :=
  calculateAllocatedBytes types s.mNumElements

/-- `ftl::span`: a pointer and an element count. -/
structure Span where
  ptr : Addr := 0
  size : UInt64 := 0
deriving DecidableEq

/-- `get_array<type_index>()`. The cast is applied to `m_Data[offset]`, the byte that is stored
there, so the byte's value becomes the pointer. -/
def getArray (types : List CppType) (h : Heap) (s : Soa) (typeIndex : Fin types.length) : Span :=
  match s.mData with
  | none => {}
  | some p =>
    let offset := calculateOffsetBytes types typeIndex 0 s.mNumElements
    { ptr := (h.read p offset.toNat).1.toNat, size := s.mNumElements }

/-- `get_array<type_index>() const`. The overload does not compile where it is used: it returns a
pointer to `const` elements as a span of others. Its text reads as the other one's does. -/
def getArrayConst (types : List CppType) (h : Heap) (s : Soa) (typeIndex : Fin types.length) :
    Span :=
  match s.mData with
  | none => {}
  | some p =>
    let offset := calculateOffsetBytes types typeIndex 0 s.mNumElements
    { ptr := (h.read p offset.toNat).1.toNat, size := s.mNumElements }

end Soa

/-! ## What the operations leave -/

/-- The loop neither allocates nor deletes. -/
theorem copyRawArrayLoop_live (h : Heap) (src dst : Block) (count : Nat) :
    (copyRawArrayLoop h src dst count).live = h.live ∧
      (copyRawArrayLoop h src dst count).badDelete = h.badDelete := by
  induction count with
  | zero => exact ⟨rfl, rfl⟩
  | succ i ih => exact ih

/-- What a `resize` to `n > 0` that returns normally leaves in the object. -/
theorem Soa.resize_normal {types : List CppType} {h h' : Heap} {s s' : Soa} {n : UInt64}
    {a : Option Block} (hn : 0 < n) (hres : s.resize types h n a = (h', s', .normal)) :
    ∃ p, a = some p ∧ s' = { mData := some p, mNumElements := n } ∧
      h'.live p = some (calculateAllocatedBytes types n).toNat := by
  unfold Soa.resize at hres
  cases a with
  | none => simp [hn, Heap.newArray] at hres
  | some p =>
    simp only [hn, if_true, Heap.newArray, Prod.mk.injEq, and_true] at hres
    obtain ⟨rfl, rfl⟩ := hres
    exact ⟨p, rfl, rfl, by simp⟩

/-! ## Used by the concrete programs -/

/-- A type of one byte. -/
def uint8Type : CppType := { size := 1, size_pos := by decide, size_lt := by decide }

/-- A type of two bytes. -/
def uint16Type : CppType := { size := 2, size_pos := by decide, size_lt := by decide }

/-- A block that the allocator may hand out. -/
def page : Block := ⟨4096, by decide⟩

end FlavoEngine.Core

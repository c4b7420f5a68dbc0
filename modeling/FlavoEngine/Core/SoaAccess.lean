import FlavoEngine.Core.Soa

/-!
# Reading and writing the arrays of a `soa`

`get_array<i>()` should hand out the elements of array `i`, and writing one element should change
that element only. Elements are the `sizeof` bytes that their value is made of, and they are
reached through the pointer of the span, whatever that pointer is.

Results:
1. `getArray_address_iff`: the span of array `i` starts at `m_Data + offset` only when the byte that
   is stored there happens to be that address.
2. `read_over_write_iff`: the read-over-write law holds of no block and no content, unless there is
   no type at all.
3. `read_over_write_fails`: one element of one byte.
-/

namespace FlavoEngine.Core

namespace Soa

variable (types : List CppType) (h : Heap) (s : Soa)

/-- The address of `get_array<i>()[k]`. -/
def elementAddr (i : Fin types.length) (k : UInt64) : Addr :=
  (s.getArray types h i).ptr + (types.get i).size * k.toNat

/-- Read `get_array<i>()[k]`; `none` when the address is in no block. -/
def loadElement (i : Fin types.length) (k : UInt64) : Option (List UInt8) :=
  h.load (s.elementAddr types h i k) (types.get i).size

/-- `get_array<i>()[k] = v`; `none` when the address is in no block. -/
def storeElement (i : Fin types.length) (k : UInt64) (v : List UInt8) : Option Heap :=
  h.store (s.elementAddr types h i k) v

/-- What is asked of the arrays of a `soa` of `n` elements. -/
structure ReadOverWrite (n : UInt64) : Prop where
  /-- Both overloads of `get_array<i>()` return `n` elements from `m_Data` plus the offset. -/
  span : ∀ i : Fin types.length, ∃ p, s.mData = some p ∧
    s.getArray types h i =
      { ptr := p.addr + (calculateOffsetBytes types i 0 n).toNat, size := n } ∧
    s.getArrayConst types h i =
      { ptr := p.addr + (calculateOffsetBytes types i 0 n).toNat, size := n }
  /-- After a store to one element, that element reads as stored and every other as before. -/
  readOver : ∀ (i j : Fin types.length) (k l : UInt64), k < n → l < n →
    ∀ v : List UInt8, v.length = (types.get i).size →
      ∃ old, s.loadElement types h j l = some old ∧
        ((s.storeElement types h i k v).bind fun h' => s.loadElement types h' j l) =
          some (if i = j ∧ k = l then v else old)

end Soa

namespace SoaAccessLemmas

/-- Nothing is stored at the null pointer. -/
theorem load_null {h : Heap} {count : Nat} (hcount : 0 < count) : h.load 0 count = none := by
  have hzero : ((List.range count).all fun k => h.mapped (0 + k)) = false := by
    refine List.all_eq_false.mpr ⟨0, List.mem_range.mpr hcount, ?_⟩
    simp [Heap.mapped]
  rw [Heap.load, hzero]
  rfl

/-- The first byte that a store writes. -/
theorem store_first {h h' : Heap} {a : Addr} {b : UInt8} {v : List UInt8}
    (hstore : h.store a (b :: v) = some h') : h'.byte a = b := by
  unfold Heap.store at hstore
  split at hstore
  · cases hstore
    simp
  · exact nomatch hstore

theorem offset_first {types : List CppType} (hpos : 0 < types.length) (n : UInt64) :
    calculateOffsetBytes types ⟨0, hpos⟩ 0 n = 0 := by
  simp [calculateOffsetBytes, offsetLoop]

end SoaAccessLemmas

open SoaAccessLemmas

/-- The start of array `i` is right exactly when the byte at that place holds its own address; in
particular no block above address 255 has it right. -/
theorem getArray_address_iff (types : List CppType) (h : Heap) (p : Block) (n : UInt64)
    (i : Fin types.length) :
    (Soa.getArray types h { mData := some p, mNumElements := n } i).ptr =
        p.addr + (calculateOffsetBytes types i 0 n).toNat ↔
      (h.byte (p.addr + (calculateOffsetBytes types i 0 n).toNat)).toNat =
        p.addr + (calculateOffsetBytes types i 0 n).toNat :=
  Iff.rfl

/-- The read-over-write law never holds of a `soa` with a type. Either the span of the first array
starts elsewhere, or its first byte holds the block's address: then storing a zero byte there sends
the next `get_array` to the null pointer. -/
theorem read_over_write_iff (types : List CppType) (n : UInt64) (hn : 1 ≤ n)
    (_hfit : (types.map (·.size)).sum * n.toNat < 2 ^ 64) {h h' : Heap} {s s' : Soa}
    {a : Option Block} (hres : s.resize types h n a = (h', s', .normal)) (byte : Addr → UInt8) :
    s'.ReadOverWrite types { h' with byte } n ↔ types = [] := by
  have hpos : 0 < n := UInt64.lt_of_lt_of_le (by decide) hn
  constructor
  · intro hlaw
    by_contra hne
    have hlen : 0 < types.length := List.length_pos_iff.mpr hne
    obtain ⟨p, -, rfl, -⟩ := Soa.resize_normal hpos hres
    obtain ⟨size, hsize⟩ := Nat.exists_eq_add_of_lt (types.get ⟨0, hlen⟩).size_pos
    rw [Nat.zero_add] at hsize
    -- the span of array 0 starts at the block
    have hptr : (Soa.getArray types { h' with byte } { mData := some p, mNumElements := n }
        ⟨0, hlen⟩).ptr = p.addr := by
      obtain ⟨q, hq, hspan, -⟩ := hlaw.span ⟨0, hlen⟩
      cases hq
      rw [hspan, offset_first]
      rfl
    -- store zero bytes to its element 0, and read the element back
    obtain ⟨old, -, hread⟩ := hlaw.readOver ⟨0, hlen⟩ ⟨0, hlen⟩ 0 0 hpos hpos
      (0 :: List.replicate size 0) (by rw [hsize]; simp)
    obtain ⟨h₁, hstore, hload⟩ := Option.bind_eq_some_iff.mp hread
    have haddr : h₁.byte p.addr = 0 := by
      rw [Soa.storeElement, Soa.elementAddr, hptr] at hstore
      exact store_first (by simpa using hstore)
    have hnull :
        (Soa.getArray types h₁ { mData := some p, mNumElements := n } ⟨0, hlen⟩).ptr = 0 := by
      simp [Soa.getArray, Heap.read, offset_first, haddr]
    rw [Soa.loadElement, Soa.elementAddr, hnull, UInt64.toNat_zero, Nat.mul_zero,
      load_null (CppType.size_pos _)] at hload
    exact nomatch hload
  · rintro rfl
    exact ⟨fun i => i.elim0, fun i => i.elim0⟩

/-- The law and its condition for one array of one byte. -/
theorem read_over_write_iff_uint8 :
    ∃ h' s', Soa.resize [uint8Type] (.empty fun _ => 7) {} 1 (some page) = (h', s', .normal) ∧
      (s'.ReadOverWrite [uint8Type] { h' with byte := fun _ => 9 } 1 ↔ [uint8Type] = []) := by
  have hres : Soa.resize [uint8Type] (.empty fun _ => 7) {} 1 (some page) = (_, _, .normal) := rfl
  exact ⟨_, _, hres, read_over_write_iff [uint8Type] 1 (by decide) (by decide) hres fun _ => 9⟩

/-- One element of one byte, in a block at address 4096 whose byte is 7: the span of the array
starts at address 7. -/
theorem read_over_write_fails :
    ∃ h' s', Soa.resize [uint8Type] (.empty fun _ => 7) {} 1 (some page) = (h', s', .normal) ∧
      (s'.getArray [uint8Type] h' ⟨0, by decide⟩).ptr = 7 ∧
      ¬ s'.ReadOverWrite [uint8Type] h' 1 := by
  refine ⟨_, _, rfl, rfl, fun hlaw => ?_⟩
  obtain ⟨p, hp, hspan, -⟩ := hlaw.span ⟨0, by decide⟩
  cases hp
  exact absurd hspan (by decide)

end FlavoEngine.Core

import FlavoEngine.Core.SoaLayout
import FlavoEngine.Lib.Alignment
import Mathlib.Data.Fintype.Basic

/-!
# The alignment of the arrays of a `soa`

`kernel/source/core/ftl/soa.h` leaves the alignment of the types to be handled: each array starts
where the one before it ends, whatever `alignof` says.

Results:
1. `offsets_aligned_iff`: the element counts for which every array starts aligned in the block, the
   multiples of a number that depends on the type list only.
2. `usable_iff`, `granule_of_descending`: the type lists for which every count is one of them; the
   lists in the order of descending alignment are such.
3. `arrays_aligned_iff`: when the arrays of a `soa` are aligned and stay inside, and when the spans
   are aligned, too.
-/

namespace FlavoEngine.Core

open FlavoEngine.Lib
open SoaLayoutLemmas

/-- What `alignof` says of the types, and the alignment of a `new uint8_t[]` block. -/
structure Alignments (types : List CppType) where
  /-- `alignof` is two to this power. -/
  alignLog : Fin types.length → Nat
  /-- The alignment of a block is two to this power. -/
  blockLog : Nat
  dvd_size : ∀ t, 2 ^ alignLog t ∣ (types.get t).size
  le_block : ∀ t, alignLog t ≤ blockLog

/-- The bytes that one element of each type before `t` takes. -/
def unitBytes (types : List CppType) (t : Fin types.length) : Nat :=
  ((sizes types).take t).sum

namespace Alignments

variable {types : List CppType} (al : Alignments types)

/-- `alignof(Types[t])`. -/
def alignof (t : Fin types.length) : Nat :=
  2 ^ al.alignLog t

/-- The alignment of a `new uint8_t[]` block. -/
def blockAlign : Nat :=
  2 ^ al.blockLog

/-- The least positive element count with which every array starts aligned in the block. -/
def granule : Nat :=
  Lib.granule al.alignof (unitBytes types)

/-- What is asked of the places of the arrays in the block. -/
structure ArraysPlaced (s : Soa) : Prop where
  offset : ∀ t, al.alignof t ∣ (calculateOffsetBytes types t 0 s.size).toNat
  /-- Each array is aligned in memory. -/
  address : ∀ p, s.mData = some p → ∀ t,
    al.alignof t ∣ p.addr + (calculateOffsetBytes types t 0 s.size).toNat
  /-- Each array ends within the bytes that are allocated. -/
  inside : ∀ t, (calculateOffsetBytes types t 0 s.size).toNat + (types.get t).size * s.size.toNat ≤
    (calculateAllocatedBytes types s.size).toNat

/-- What is asked of the arrays of a `soa`. -/
structure ArraysAligned (h : Heap) (s : Soa) : Prop extends al.ArraysPlaced s where
  /-- Both overloads of `get_array` hand out aligned pointers. -/
  span : ∀ t, al.alignof t ∣ (s.getArray types h t).ptr ∧
    al.alignof t ∣ (s.getArrayConst types h t).ptr

/-- The byte at the start of each array, which `get_array` casts to the pointer, is a multiple of
the alignment. -/
def FirstBytesAligned (h : Heap) (s : Soa) : Prop :=
  ∀ p, s.mData = some p → ∀ t,
    al.alignof t ∣ (h.byte (p.addr + unitBytes types t * s.size.toNat)).toNat

end Alignments

namespace SoaAlignmentLemmas

variable {types : List CppType} (al : Alignments types)

theorem alignof_pos (t : Fin types.length) : 0 < al.alignof t :=
  Nat.two_pow_pos (al.alignLog t)

theorem alignof_dvd_blockAlign (t : Fin types.length) : al.alignof t ∣ al.blockAlign :=
  Nat.pow_dvd_pow 2 (al.le_block t)

/-- No alignment is lost where the arithmetic wraps. -/
theorem alignof_dvd_bound (t : Fin types.length) : al.alignof t ∣ 2 ^ 64 := by
  have hle : al.alignof t ≤ (types.get t).size := Nat.le_of_dvd (types.get t).size_pos (al.dvd_size t)
  have hlt : 2 ^ al.alignLog t < 2 ^ 64 := Nat.lt_of_le_of_lt hle (types.get t).size_lt
  exact Nat.pow_dvd_pow 2 (Nat.le_of_lt ((Nat.pow_lt_pow_iff_right (by decide)).mp hlt))

/-- All elements of an array are aligned when its first one is. -/
theorem offset_dvd_iff (t : Fin types.length) (k n : UInt64) :
    al.alignof t ∣ (calculateOffsetBytes types t k n).toNat ↔
      al.alignof t ∣ unitBytes types t * n.toNat := by
  rw [offsetBytes_toNat, Nat.dvd_mod_iff (alignof_dvd_bound al t)]
  have hindex : al.alignof t ∣ (types.get t).size * k.toNat := Nat.dvd_mul_right_of_dvd (al.dvd_size t) _
  exact (Nat.dvd_add_iff_left hindex).symm

/-- Where an array starts. -/
theorem offset_zero (t : Fin types.length) (n : UInt64) :
    (calculateOffsetBytes types t 0 n).toNat = arrayStart (sizes types) n.toNat t % 2 ^ 64 := by
  rw [offsetBytes_toNat, UInt64.toNat_zero, Nat.mul_zero, Nat.add_zero]

/-- The arrays end within the allocated bytes unless something wraps. -/
theorem offsets_inside_iff (n : UInt64) :
    (∀ t : Fin types.length, (calculateOffsetBytes types t 0 n).toNat + (types.get t).size * n.toNat ≤
        (calculateAllocatedBytes types n).toNat) ↔ exactBytes types n < 2 ^ 64 := by
  have hlen : (sizes types).length = types.length := List.length_map _
  have hsize : ∀ t : Fin types.length, (sizes types)[t.val] = (types.get t).size :=
    fun t => List.getElem_map _
  rw [allocatedBytes_toNat]
  unfold exactBytes
  rw [← arrays_inside_iff (sizes types) n.toNat (Nat.two_pow_pos 64)]
  constructor
  · intro hinside t ht
    have hend := hinside ⟨t, hlen ▸ ht⟩
    rw [offset_zero, ← hsize] at hend
    exact hend
  · intro hinside t
    rw [offset_zero, ← hsize]
    exact hinside t (hlen.symm ▸ t.isLt)

/-- Where nothing wraps, the pointers of `get_array` are the first bytes of the arrays. -/
theorem span_aligned_iff (h : Heap) (s : Soa) (hfit : exactBytes types s.size < 2 ^ 64) :
    (∀ t, al.alignof t ∣ (s.getArray types h t).ptr ∧
        al.alignof t ∣ (s.getArrayConst types h t).ptr) ↔ al.FirstBytesAligned h s := by
  obtain ⟨data, n⟩ := s
  cases data with
  | none =>
    -- both overloads return the null pointer
    exact iff_of_true (fun t => ⟨Nat.dvd_zero _, Nat.dvd_zero _⟩) fun p hp => nomatch hp
  | some p =>
    have hstart : ∀ t : Fin types.length,
        (calculateOffsetBytes types t 0 n).toNat = unitBytes types t * n.toNat :=
      fun t => offset_start hfit t
    have hptr : ∀ t, (Soa.getArray types h { mData := some p, mNumElements := n } t).ptr =
        (h.byte (p.addr + unitBytes types t * n.toNat)).toNat := by
      intro t
      rw [← hstart]
      rfl
    constructor
    · rintro hspan _ ⟨⟩ t
      rw [Soa.size, ← hptr]
      exact (hspan t).1
    · intro hbytes t
      have hbyte := hbytes p rfl t
      rw [Soa.size, ← hptr] at hbyte
      exact ⟨hbyte, hbyte⟩

end SoaAlignmentLemmas

open SoaAlignmentLemmas

/-! ## Type lists and counts -/

section Counts

variable {types : List CppType} (al : Alignments types)

/-- The arrays of `n` elements start aligned in the block exactly when `n` is a multiple of the
granule, even where the offsets have wrapped. -/
theorem offsets_aligned_iff (n : UInt64) :
    (∀ t, al.alignof t ∣ (calculateOffsetBytes types t 0 n).toNat) ↔ al.granule ∣ n.toNat := by
  unfold Alignments.granule
  rw [← forall_dvd_mul_iff (alignof_pos al)]
  exact forall_congr' fun t => offset_dvd_iff al t 0 n

/-- The type lists that can be used with every count. -/
theorem usable_iff :
    (∀ (n : UInt64) t, al.alignof t ∣ (calculateOffsetBytes types t 0 n).toNat) ↔
      al.granule = 1 := by
  constructor
  · intro hall
    exact Nat.dvd_one.mp ((offsets_aligned_iff al 1).mp (hall 1))
  · intro hone n
    rw [offsets_aligned_iff, hone]
    exact Nat.one_dvd n.toNat

/-- Types in the order of descending alignment can be used with every count. -/
theorem granule_of_descending (hdesc : ∀ i t, i < t → al.alignLog t ≤ al.alignLog i) :
    al.granule = 1 := by
  refine (granule_eq_one_iff (alignof_pos al)).mpr fun t => dvd_take_sum fun i hi hit => ?_
  have hlt : i < types.length := hit.trans t.isLt
  have hsize : (sizes types)[i] = types[i].size := List.getElem_map _
  rw [hsize]
  exact (Nat.pow_dvd_pow 2 (hdesc ⟨i, hlt⟩ t hit)).trans (al.dvd_size ⟨i, hlt⟩)

end Counts

/-! ## The arrays of a `soa` -/

theorem placed_iff {types : List CppType} (al : Alignments types) (s : Soa)
    (hblock : ∀ p, s.mData = some p → al.blockAlign ∣ p.addr) :
    al.ArraysPlaced s ↔ exactBytes types s.size < 2 ^ 64 ∧ al.granule ∣ s.size.toNat := by
  constructor
  · intro hplaced
    exact ⟨(offsets_inside_iff s.size).mp hplaced.inside,
      (offsets_aligned_iff al s.size).mp hplaced.offset⟩
  · rintro ⟨hfit, hcount⟩
    have hoffset := (offsets_aligned_iff al s.size).mpr hcount
    constructor
    case offset => exact hoffset
    case address =>
      intro p hp t
      have hp' : al.alignof t ∣ p.addr := (alignof_dvd_blockAlign al t).trans (hblock p hp)
      exact Nat.dvd_add hp' (hoffset t)
    case inside => exact (offsets_inside_iff s.size).mpr hfit

/-- The arrays of a `soa` are aligned and inside its block exactly when the exact number of bytes is
below 2^64 and the element count is a multiple of the granule, whatever is in memory. The spans are
aligned as well exactly when, besides, the bytes that `get_array` casts to pointers happen to be
aligned. -/
theorem arrays_aligned_iff {types : List CppType} (al : Alignments types) (h : Heap) (s : Soa)
    (hblock : ∀ p, s.mData = some p → al.blockAlign ∣ p.addr) :
    (al.ArraysPlaced s ↔ exactBytes types s.size < 2 ^ 64 ∧ al.granule ∣ s.size.toNat) ∧
      (al.ArraysAligned h s ↔
        exactBytes types s.size < 2 ^ 64 ∧ al.granule ∣ s.size.toNat ∧
          al.FirstBytesAligned h s) := by
  have hplaced := placed_iff al s hblock
  refine ⟨hplaced, ?_⟩
  constructor
  · intro haligned
    obtain ⟨hfit, hcount⟩ := hplaced.mp haligned.toArraysPlaced
    exact ⟨hfit, hcount, (span_aligned_iff al h s hfit).mp haligned.span⟩
  · rintro ⟨hfit, hcount, hbytes⟩
    exact { hplaced.mpr ⟨hfit, hcount⟩ with span := (span_aligned_iff al h s hfit).mpr hbytes }

/-- A byte and a number of two bytes, each aligned to its size, in blocks aligned to 16. -/
def mixedAlignments : Alignments [uint8Type, uint16Type] where
  alignLog t := t.val
  blockLog := 4
  dvd_size := by decide
  le_block := by decide

example : mixedAlignments.granule = 2 := by decide

/-- Two elements, in a block of even bytes. -/
theorem arrays_aligned_iff_mixed :
    ∃ h' s', Soa.resize [uint8Type, uint16Type] (.empty fun _ => 6) {} 2 (some page) =
        (h', s', .normal) ∧ s'.size = 2 ∧ mixedAlignments.ArraysAligned h' s' := by
  refine ⟨_, _, rfl, rfl, (arrays_aligned_iff mixedAlignments _ _ ?_).2.mpr ⟨?_, ?_, ?_⟩⟩
  · rintro p ⟨⟩
    decide
  · decide
  · decide
  · rintro p ⟨⟩
    decide

/-- One element: the array of two-byte numbers starts at the odd offset 1. -/
theorem array_misaligned :
    ∃ h' s', Soa.resize [uint8Type, uint16Type] (.empty fun _ => 6) {} 1 (some page) =
        (h', s', .normal) ∧ mixedAlignments.blockAlign ∣ page.addr ∧
      exactBytes [uint8Type, uint16Type] s'.size < 2 ^ 64 ∧
      mixedAlignments.FirstBytesAligned h' s' ∧
      calculateOffsetBytes [uint8Type, uint16Type] ⟨1, by decide⟩ 0 s'.size = 1 ∧
      ¬ mixedAlignments.ArraysAligned h' s' := by
  refine ⟨_, _, rfl, by decide, by decide, ?_, by decide, fun haligned => ?_⟩
  · rintro p ⟨⟩
    decide
  · exact absurd (haligned.offset ⟨1, by decide⟩) (by decide)

end FlavoEngine.Core

import FlavoEngine.Core.Soa
import FlavoEngine.Lib.Tiling

/-!
# The layout of a `soa`

Where the elements of a `soa` lie in its block. The size of the block (`calculate_allocated_bytes`)
and the place of an element in it (`calculate_offset_bytes`) are computed by two loops of their own,
in arithmetic modulo 2^64.

Results:
1. `allocatedBytes_toNat`, `offsetBytes_toNat`: what the two loops compute.
2. `layout_tiles`: when the exact number of bytes is below 2^64, the elements tile the block.
3. `resize_fits_iff`: the block of a `resize` holds its arrays exactly in that case.
-/

namespace FlavoEngine.Core

open FlavoEngine.Lib

/-- `sizeof` of the types. -/
def sizes (types : List CppType) : List Nat :=
  types.map (·.size)

/-- The bytes of all the elements, counted without wrapping. -/
def exactBytes (types : List CppType) (n : UInt64) : Nat :=
  (sizes types).sum * n.toNat

/-- The places in the block of the bytes of one element. -/
def elementBytes (types : List CppType) (n : UInt64) (t : Fin types.length) (k : UInt64) :
    Set Nat :=
  Set.Ico (calculateOffsetBytes types t k n).toNat
    ((calculateOffsetBytes types t k n).toNat + types[t].size)

/-- `size()`. -/
def Soa.size (s : Soa) : UInt64 :=
  s.mNumElements

namespace SoaLayoutLemmas

variable (types : List CppType) (n : UInt64)

theorem sizeof_toNat (t : CppType) : (UInt64.ofNat t.size).toNat = t.size :=
  UInt64.toNat_ofNat_of_lt' t.size_lt

/-- The accumulation of `calculate_allocated_bytes` from a partial sum. -/
theorem accumulate_toNat (sum : UInt64) :
    ((typesSizeof types).foldl (fun sum curr => sum + curr * n) sum).toNat =
      (sum.toNat + (sizes types).sum * n.toNat) % 2 ^ 64 := by
  induction types generalizing sum with
  | nil =>
    show sum.toNat = _
    simp [sizes, Nat.mod_eq_of_lt sum.toNat_lt]
  | cons t types ih =>
    show ((typesSizeof types).foldl _ (sum + UInt64.ofNat t.size * n)).toNat = _
    rw [ih, UInt64.toNat_add, UInt64.toNat_mul, sizeof_toNat, Nat.mod_add_mod, Nat.add_right_comm,
      Nat.add_mod_mod]
    show _ = (sum.toNat + (t.size + (sizes types).sum) * n.toNat) % 2 ^ 64
    rw [Nat.add_mul, Nat.add_right_comm, Nat.add_assoc]

theorem allocatedBytes_toNat :
    (calculateAllocatedBytes types n).toNat = exactBytes types n % 2 ^ 64 := by
  unfold calculateAllocatedBytes exactBytes
  rw [accumulate_toNat, UInt64.toNat_zero, Nat.zero_add]

theorem sizeof_getD {t : Nat} (ht : t < types.length) :
    ((typesSizeof types).getD t 0).toNat = types[t].size := by
  unfold typesSizeof
  rw [List.getD_eq_getElem?_getD, List.getElem?_map, List.getElem?_eq_getElem ht]
  exact sizeof_toNat types[t]

theorem offsetLoop_toNat {t : Nat} (ht : t ≤ types.length) :
    (offsetLoop (typesSizeof types) n t).toNat =
      arrayStart (sizes types) n.toNat t % 2 ^ 64 := by
  induction t with
  | zero => simp [offsetLoop, arrayStart]
  | succ t ih =>
    have hlt : t < (sizes types).length := by simpa [sizes] using ht
    unfold offsetLoop
    rw [UInt64.toNat_add, UInt64.toNat_mul, ih (Nat.le_of_succ_le ht), sizeof_getD types ht,
      arrayStart_succ _ _ hlt]
    simp [sizes, Nat.add_mod]

theorem offsetBytes_toNat (t : Fin types.length) (k : UInt64) :
    (calculateOffsetBytes types t k n).toNat =
      (arrayStart (sizes types) n.toNat t + types[t].size * k.toNat) % 2 ^ 64 := by
  unfold calculateOffsetBytes
  rw [UInt64.toNat_add, UInt64.toNat_mul, offsetLoop_toNat types n (Nat.le_of_lt t.isLt),
    sizeof_getD types t.isLt]
  simp [Nat.add_mod]

variable {types n}

/-- Nothing wraps in the offset of an element, nor in that of the end of its array. -/
theorem offset_eq (hfit : exactBytes types n < 2 ^ 64) (t : Fin types.length) {k : UInt64}
    (hk : k ≤ n) : (calculateOffsetBytes types t k n).toNat =
      arrayStart (sizes types) n.toNat t + types[t].size * k.toNat := by
  have hlen : t.val < (sizes types).length := by simp [sizes]
  have hsize : (sizes types)[t.val] = types[t].size := by simp [sizes]
  have hend := arrayStart_le (sizes types) n.toNat hlen
  rw [arrayStart_succ _ _ hlen, hsize] at hend
  have hmul : types[t].size * k.toNat ≤ types[t].size * n.toNat :=
    Nat.mul_le_mul_left _ (UInt64.le_iff_toNat_le.mp hk)
  rw [offsetBytes_toNat]
  refine Nat.mod_eq_of_lt (Nat.lt_of_le_of_lt ?_ hfit)
  exact (Nat.add_le_add_left hmul _).trans hend

theorem offset_start (hfit : exactBytes types n < 2 ^ 64) (t : Fin types.length) :
    (calculateOffsetBytes types t 0 n).toNat = arrayStart (sizes types) n.toNat t := by
  rw [offset_eq hfit t UInt64.zero_le, UInt64.toNat_zero, Nat.mul_zero, Nat.add_zero]

/-- Where an element is in the tiling by the elements of all arrays. -/
def place (t : Fin types.length) (k : UInt64) (hk : k < n) :
    Σ _ : Fin (sizes types).length, Fin n.toNat :=
  ⟨⟨t, by simp [sizes]⟩, ⟨k.toNat, UInt64.lt_iff_toNat_lt.mp hk⟩⟩

theorem elementBytes_eq (hfit : exactBytes types n < 2 ^ 64) (t : Fin types.length) {k : UInt64}
    (hk : k < n) :
    elementBytes types n t k = arrayElement (sizes types) n.toNat (place t k hk) := by
  unfold elementBytes
  rw [offset_eq hfit t (UInt64.le_of_lt hk)]
  simp [arrayElement, place, sizes]

theorem place_surjective (p : Σ _ : Fin (sizes types).length, Fin n.toNat) :
    ∃ (t : Fin types.length) (k : UInt64) (hk : k < n), place t k hk = p := by
  obtain ⟨t, k⟩ := p
  have ht : t.val < types.length := by simpa [sizes] using t.isLt
  have hk : (UInt64.ofNat k).toNat = k := UInt64.toNat_ofNat_of_lt' (k.isLt.trans n.toNat_lt)
  refine ⟨⟨t, ht⟩, UInt64.ofNat k, UInt64.lt_iff_toNat_lt.mpr (by rw [hk]; exact k.isLt), ?_⟩
  simp [place, hk]

end SoaLayoutLemmas

open SoaLayoutLemmas

/-! ## The elements of a block -/

/-- The elements of `n` places tile the block: no byte belongs to two of them, each byte of the
block to one, and each array starts where the one before it ends. -/
structure TilesBlock (types : List CppType) (n : UInt64) : Prop where
  disjoint : ∀ (t t' : Fin types.length) (k k' : UInt64), k < n → k' < n → t ≠ t' ∨ k ≠ k' →
    Disjoint (elementBytes types n t k) (elementBytes types n t' k')
  cover : ∀ b, b < (calculateAllocatedBytes types n).toNat ↔
    ∃ t k, k < n ∧ b ∈ elementBytes types n t k
  next : ∀ t t' : Fin types.length, t'.val = t.val + 1 →
    (calculateOffsetBytes types t' 0 n).toNat =
      (calculateOffsetBytes types t 0 n).toNat + types[t].size * n.toNat

/-- The layout has neither gaps nor overlaps when the exact number of bytes is below 2^64. -/
theorem layout_tiles (types : List CppType) (n : UInt64) (hfit : exactBytes types n < 2 ^ 64) :
    TilesBlock types n := by
  have htiles := tiles_arrays (sizes types) n.toNat
  constructor
  case disjoint =>
    intro t t' k k' hk hk' hne
    rw [elementBytes_eq hfit t hk, elementBytes_eq hfit t' hk']
    refine htiles.disjoint fun heq => ?_
    simp only [place, Sigma.mk.injEq, Fin.mk.injEq, heq_eq_eq] at heq
    rcases hne with ht | hk
    · exact ht (Fin.ext heq.1)
    · exact hk (UInt64.toNat_inj.mp heq.2)
  case cover =>
    intro b
    have hmem := htiles.cover b
    rw [Set.mem_Ico, and_iff_right (Nat.zero_le b)] at hmem
    rw [allocatedBytes_toNat, Nat.mod_eq_of_lt hfit]
    refine hmem.trans ⟨?_, ?_⟩
    · rintro ⟨p, hb⟩
      obtain ⟨t, k, hk, rfl⟩ := place_surjective p
      exact ⟨t, k, hk, by rw [elementBytes_eq hfit t hk]; exact hb⟩
    · rintro ⟨t, k, hk, hb⟩
      rw [elementBytes_eq hfit t hk] at hb
      exact ⟨_, hb⟩
  case next =>
    intro t t' ht
    have hlen : t.val < (sizes types).length := by simp [sizes]
    rw [offset_start hfit t, offset_start hfit t', ht, arrayStart_succ _ _ hlen]
    simp [sizes]

/-- Three elements of one byte and three of two. -/
theorem layout_tiles_mixed : TilesBlock [uint8Type, uint16Type] 3 :=
  layout_tiles [uint8Type, uint16Type] 3 (by decide)

/-! ## The block of a `resize` -/

/-- What is asked of a `resize(n)` that returned: the `soa` has `n` elements, and unless there are
none its block has room for all of them. -/
structure FitsArrays (types : List CppType) (h : Heap) (s : Soa) (n : UInt64) : Prop where
  size : s.size = n
  block : 0 < n → ∃ p bytes, s.mData = some p ∧ h.live p = some bytes ∧
    exactBytes types n ≤ bytes ∧
    ∀ t k, k < n → elementBytes types n t k ⊆ Set.Iio bytes

/-- The block of a `resize(n)` that returned has room for its arrays exactly when the exact number
of bytes is below 2^64. From 2^64 on, the total that `new` is asked for has wrapped. -/
theorem resize_fits_iff (types : List CppType) (n : UInt64) {h h' : Heap} {s s' : Soa}
    {a : Option Block} (hres : s.resize types h n a = (h', s', .normal)) :
    FitsArrays types h' s' n ↔ exactBytes types n < 2 ^ 64 := by
  rcases eq_or_ne n 0 with rfl | hne
  · -- nothing is allocated
    have hs' : s'.size = 0 := by
      cases hres
      rfl
    exact ⟨fun _ => by simp [exactBytes], fun _ => ⟨hs', fun hpos => absurd hpos (by decide)⟩⟩
  · have hpos : 0 < n := UInt64.pos_iff_ne_zero.mpr hne
    obtain ⟨p, -, rfl, hlive⟩ := Soa.resize_normal hpos hres
    rw [allocatedBytes_toNat] at hlive
    constructor
    · intro hfits
      obtain ⟨q, bytes, hq, hbytes, hroom, -⟩ := hfits.block hpos
      cases hq
      rw [hlive, Option.some.injEq] at hbytes
      exact lt_of_le_of_lt (hroom.trans_eq hbytes.symm) (Nat.mod_lt _ (by decide))
    · intro hfit
      rw [Nat.mod_eq_of_lt hfit] at hlive
      refine ⟨rfl, fun _ => ⟨p, _, rfl, hlive, le_rfl, fun t k hk b hb => ?_⟩⟩
      have hcover := ((layout_tiles types n hfit).cover b).mpr ⟨t, k, hk, hb⟩
      rw [allocatedBytes_toNat, Nat.mod_eq_of_lt hfit] at hcover
      exact hcover

/-- Three elements of one byte and three of two, in a block of nine bytes. -/
theorem resize_fits_iff_mixed :
    ∃ h' s', Soa.resize [uint8Type, uint16Type] (.empty fun _ => 0) {} 3 (some page) =
        (h', s', .normal) ∧
      (FitsArrays [uint8Type, uint16Type] h' s' 3 ↔
        exactBytes [uint8Type, uint16Type] 3 < 2 ^ 64) := by
  have hres : Soa.resize [uint8Type, uint16Type] (.empty fun _ => 0) {} 3 (some page) =
      (_, _, .normal) := rfl
  exact ⟨_, _, hres, resize_fits_iff [uint8Type, uint16Type] 3 hres⟩

/-- 2^63. -/
def hugeCount : UInt64 := 0x8000000000000000

/-- 2^63 elements of two bytes: the total wraps to zero, and `new uint8_t[0]` succeeds. -/
theorem resize_too_small :
    ∃ h' s', (Soa.destroy (.empty fun _ => 0) {}).1.MayReturn
        (calculateAllocatedBytes [uint16Type] hugeCount).toNat (some page) ∧
      Soa.resize [uint16Type] (.empty fun _ => 0) {} hugeCount (some page) = (h', s', .normal) ∧
      s'.size = hugeCount ∧ h'.live page = some 0 ∧
      ¬ FitsArrays [uint16Type] h' s' hugeCount := by
  refine ⟨_, _, ?_, rfl, rfl, by decide, fun hfits => ?_⟩
  · rintro p ⟨⟩
    exact ⟨rfl, by decide, fun q bytes hq => nomatch hq⟩
  · obtain ⟨p, bytes, hp, hbytes, hroom, -⟩ := hfits.block (by decide)
    cases hp
    cases hbytes
    exact absurd hroom (by decide +kernel)

end FlavoEngine.Core

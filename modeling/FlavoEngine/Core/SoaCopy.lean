import FlavoEngine.Core.SoaLayout

/-!
# Copying a `soa`

The copy constructor calls `CopyRawArray(src.m_Data, src.m_NumElements)`, which copies as many bytes
as there are elements.

Results:
1. `copyLoop_byte`, `copyLoop_frame`, `copyLoop_badAccess`: what the loop of `CopyRawArray` reads
   and writes.
2. `copy_preserves_iff`: the copy has the elements of its source exactly when there are none, or
   when the type list is a single type of one byte.
3. `copy_loses_bytes`: one element of two bytes.
-/

namespace FlavoEngine.Core

open SoaLayoutLemmas

namespace SoaCopyLemmas

variable {h : Heap} {src dst : Block}

/-- Places in two stretches of memory that do not overlap. -/
theorem apart {a b count i k : Nat} (hdisj : a + count ≤ b ∨ b + count ≤ a) (hi : i < count)
    (hk : k < count) : a + i ≠ b + k := by
  omega

/-- The bytes outside the target stay as they are. -/
theorem copyLoop_frame {count : Nat} {a : Addr} (ha : ∀ i, i < count → a ≠ dst.addr + i) :
    (copyRawArrayLoop h src dst count).byte a = h.byte a := by
  induction count with
  | zero => rfl
  | succ i ih =>
    have hne : a ≠ dst.addr + i := ha i (Nat.lt_succ_self i)
    simp only [copyRawArrayLoop, Heap.write, Heap.read, Function.update_of_ne hne]
    exact ih fun j hj => ha j (Nat.lt_succ_of_lt hj)

/-- When the target does not overlap the source, it gets the bytes of the source. -/
theorem copyLoop_byte {count total : Nat}
    (hdisj : src.addr + total ≤ dst.addr ∨ dst.addr + total ≤ src.addr) (hcount : count ≤ total)
    {i : Nat} (hi : i < count) :
    (copyRawArrayLoop h src dst count).byte (dst.addr + i) = h.byte (src.addr + i) := by
  induction count with
  | zero => exact absurd hi (Nat.not_lt_zero i)
  | succ j ih =>
    simp only [copyRawArrayLoop, Heap.write, Heap.read]
    rcases Nat.lt_or_eq_of_le (Nat.le_of_lt_succ hi) with hlt | rfl
    · rw [Function.update_of_ne fun heq => Nat.ne_of_lt hlt (Nat.add_left_cancel heq)]
      exact ih (Nat.le_of_succ_le hcount) hlt
    · rw [Function.update_self]
      -- the byte that this round reads is still the one of the source
      exact copyLoop_frame fun k hk => apart hdisj hcount (hk.trans hcount)

/-- The loop accesses the first `count` bytes of both blocks and no other. -/
theorem copyLoop_badAccess {count : Nat} :
    (copyRawArrayLoop h src dst count).badAccess = true ↔ h.badAccess = true ∨
      ∃ i, i < count ∧ (h.inBlock src i = false ∨ h.inBlock dst i = false) := by
  induction count with
  | zero => simp [copyRawArrayLoop]
  | succ j ih =>
    have hblock : ∀ p i, (copyRawArrayLoop h src dst j).inBlock p i = h.inBlock p i := by
      intro p i
      unfold Heap.inBlock
      rw [(copyRawArrayLoop_live h src dst j).1]
    show (((copyRawArrayLoop h src dst j).badAccess ||
        !(copyRawArrayLoop h src dst j).inBlock src j) ||
          !(copyRawArrayLoop h src dst j).inBlock dst j) = true ↔ _
    rw [hblock, hblock, Bool.or_eq_true, Bool.or_eq_true, ih, Bool.not_eq_true', Bool.not_eq_true',
      Nat.exists_lt_succ_right, or_assoc, or_assoc]

end SoaCopyLemmas

open SoaCopyLemmas

/-- A `soa` with elements has a block of the size that its layout asks for. -/
def Soa.HasBlock (types : List CppType) (h : Heap) (s : Soa) : Prop :=
  s.size ≠ 0 → ∃ p, s.mData = some p ∧ h.live p = some (s.allocatedSize types).toNat

/-- What is asked of a copy `t` of `src`, which took the free store from `h` to `h'`. -/
structure CopyPreserves (types : List CppType) (h h' : Heap) (src t : Soa) : Prop where
  size : t.size = src.size
  /-- A copy with elements owns a fresh block with room for them. -/
  fresh : src.size ≠ 0 → ∃ q bytes, t.mData = some q ∧ h.live q = none ∧ h'.live q = some bytes ∧
    (src.allocatedSize types).toNat ≤ bytes
  /-- Each byte of each element is the one of the source. -/
  elements : ∀ p q, src.mData = some p → t.mData = some q → ∀ ty k, k < src.size →
    ∀ b ∈ elementBytes types src.size ty k, h'.byte (q.addr + b) = h.byte (p.addr + b)
  /-- The source keeps its block and its bytes. -/
  source : ∀ p bytes, src.mData = some p → h.live p = some bytes → h'.live p = some bytes ∧
    ∀ i, i < bytes → h'.byte (p.addr + i) = h.byte (p.addr + i)
  /-- No byte outside the two blocks was accessed. -/
  inside : h'.badAccess = false

namespace SoaCopyLemmas

variable {types : List CppType} {h h' : Heap} {n : UInt64} {p q : Block} {a : Option Block}

/-- The free store after `CopyRawArray` has copied `n` bytes of `p` to the new block `q`. -/
def copied (h : Heap) (p q : Block) (n : UInt64) : Heap :=
  copyRawArrayLoop { h with live := Function.update h.live q (some n.toNat) } p q n.toNat

theorem copied_live (h : Heap) (p q : Block) (n : UInt64) :
    (copied h p q n).live = Function.update h.live q (some n.toNat) :=
  (copyRawArrayLoop_live _ p q n.toNat).1

/-- A live block is not the one that `new` hands out. -/
theorem ne_of_live {bytes : Nat} (hp : h.live p = some bytes) (hq : h.live q = none) : p ≠ q := by
  rintro rfl
  rw [hp] at hq
  cases hq

/-- The accesses of the copy are inside the blocks when these are large enough. -/
theorem copied_badAccess {bytes : Nat} (hp : h.live p = some bytes) (hq : h.live q = none) :
    (copied h p q n).badAccess = true ↔ h.badAccess = true ∨ bytes < n.toNat := by
  have hp' : Function.update h.live q (some n.toNat) p = some bytes := by
    rw [Function.update_of_ne (ne_of_live hp hq), hp]
  unfold copied
  rw [copyLoop_badAccess]
  refine or_congr_right ⟨?_, fun hlt => ⟨bytes, hlt, .inl (by simp [Heap.inBlock, hp'])⟩⟩
  rintro ⟨i, hi, hout | hout⟩
  · have hle : bytes ≤ i := by simpa [Heap.inBlock, hp'] using hout
    exact Nat.lt_of_le_of_lt hle hi
  · simp [Heap.inBlock, hi] at hout

/-- A `soa` without elements is copied to an empty one, and nothing is allocated. -/
theorem copy_of_empty {src t : Soa} (hempty : src.size = 0)
    (hcopy : src.copyConstruct h a = some (t, h')) : t = {} ∧ h' = h := by
  have hnum : src.mNumElements = 0 := hempty
  unfold Soa.copyConstruct copyRawArray at hcopy
  split at hcopy
  · cases hcopy
    exact ⟨by rw [hnum], rfl⟩
  · rw [if_pos hnum] at hcopy
    cases hcopy
    exact ⟨by rw [hnum], rfl⟩

/-- The copy of a `soa` with elements has a block of as many bytes as there are elements. -/
theorem copy_of_block {t : Soa} (hn : n ≠ 0)
    (hcopy : Soa.copyConstruct h { mData := some p, mNumElements := n } a = some (t, h')) :
    ∃ q, a = some q ∧ t = { mData := some q, mNumElements := n } ∧ h' = copied h p q n := by
  simp only [Soa.copyConstruct, copyRawArray, if_neg hn] at hcopy
  cases a with
  | none => cases hcopy
  | some q =>
    cases hcopy
    exact ⟨q, rfl, rfl, rfl⟩

theorem preserves_of_empty {src : Soa} (hempty : src.size = 0) (hclean : h.badAccess = false) :
    CopyPreserves types h h src {} where
  size := hempty.symm
  fresh hne := absurd hempty hne
  elements _ _ _ hq := nomatch hq
  source _ _ _ hlive := ⟨hlive, fun _ _ => rfl⟩
  inside := hclean

/-- The copy of a block that has one byte for each element. -/
theorem preserves_of_whole (hp : h.live p = some n.toNat) (ha : h.MayReturn n.toNat (some q))
    (hclean : h.badAccess = false) (hbytes : (calculateAllocatedBytes types n).toNat = n.toNat)
    (hfit : exactBytes types n < 2 ^ 64) :
    CopyPreserves types h (copied h p q n) { mData := some p, mNumElements := n }
      { mData := some q, mNumElements := n } := by
  obtain ⟨hq, -, happart⟩ := ha q rfl
  have hdisj := (happart p n.toNat hp).symm
  constructor
  case size => rfl
  case fresh =>
    refine fun _ => ⟨q, n.toNat, rfl, hq, ?_, hbytes.le⟩
    rw [copied_live, Function.update_self]
  case elements =>
    rintro _ _ ⟨⟩ ⟨⟩ ty k hk b hb
    have hlt : b < n.toNat := by
      rw [← hbytes]
      exact ((layout_tiles types n hfit).cover b).mpr ⟨ty, k, hk, hb⟩
    exact copyLoop_byte hdisj le_rfl hlt
  case source =>
    rintro _ bytes ⟨⟩ hbytes'
    rw [hp, Option.some.injEq] at hbytes'
    subst hbytes'
    refine ⟨?_, fun i hi => copyLoop_frame fun j hj => apart hdisj hi hj⟩
    rw [copied_live, Function.update_of_ne (ne_of_live hp hq), hp]
  case inside =>
    rw [← Bool.not_eq_true, copied_badAccess hp hq, hclean]
    simp

/-- The types take one byte together when there is one type, of one byte. -/
theorem sizes_sum_eq_one : (sizes types).sum = 1 ↔ ∃ ty, types = [ty] ∧ ty.size = 1 := by
  constructor
  · intro hsum
    cases types with
    | nil => cases hsum
    | cons ty types =>
      have hsum' : ty.size + (sizes types).sum = 1 := hsum
      have hpos := ty.size_pos
      have hrest : (sizes types).sum = 0 := by omega
      cases types with
      | nil => exact ⟨ty, rfl, by omega⟩
      | cons ty' types =>
        have hrest' : ty'.size + (sizes types).sum = 0 := hrest
        have hpos' := ty'.size_pos
        omega
  · rintro ⟨ty, rfl, hsize⟩
    simp [sizes, hsize]

/-- A copy of one byte for each element loses some bytes of larger elements, and reads what is not
there when there are no arrays. -/
theorem sum_of_preserves (hn : n ≠ 0) (hp : h.live p = some ((sizes types).sum * n.toNat))
    (hq : h.live q = none)
    (hbytes : (calculateAllocatedBytes types n).toNat = (sizes types).sum * n.toNat)
    (hkept : CopyPreserves types h (copied h p q n) { mData := some p, mNumElements := n }
      { mData := some q, mNumElements := n }) : (sizes types).sum = 1 := by
  have hpos : 0 < n.toNat := UInt64.lt_iff_toNat_lt.mp (UInt64.pos_iff_ne_zero.mpr hn)
  have hatMost : (sizes types).sum * n.toNat ≤ n.toNat := by
    obtain ⟨q', bytes, hq', -, hlive, hroom⟩ := hkept.fresh hn
    cases hq'
    rw [copied_live, Function.update_self, Option.some.injEq] at hlive
    rw [← hlive] at hroom
    exact hbytes.symm.trans_le hroom
  have hatLeast : n.toNat ≤ (sizes types).sum * n.toNat := by
    refine Nat.not_lt.mp fun hlt => ?_
    have hbad := (copied_badAccess hp hq).mpr (.inr hlt)
    rw [hkept.inside] at hbad
    cases hbad
  have hone : (sizes types).sum * n.toNat = 1 * n.toNat := by
    rw [Nat.one_mul]
    exact le_antisymm hatMost hatLeast
  exact Nat.eq_of_mul_eq_mul_right hpos hone

end SoaCopyLemmas

/-- The copy of a `soa` of `n` elements preserves them exactly when `n` is 0, or when its one type
has one byte. -/
theorem copy_preserves_iff (types : List CppType) {h h' : Heap} {src t : Soa} {a : Option Block}
    (hfit : exactBytes types src.size < 2 ^ 64) (hsrc : src.HasBlock types h)
    (hclean : h.badAccess = false) (ha : h.MayReturn src.size.toNat a)
    (hcopy : src.copyConstruct h a = some (t, h')) :
    CopyPreserves types h h' src t ↔
      src.size = 0 ∨ ∃ ty, types = [ty] ∧ ty.size = 1 := by
  rw [← sizes_sum_eq_one]
  rcases eq_or_ne src.size 0 with hempty | hne
  · obtain ⟨rfl, rfl⟩ := copy_of_empty hempty hcopy
    exact ⟨fun _ => .inl hempty, fun _ => preserves_of_empty hempty hclean⟩
  · obtain ⟨p, hp, hlive⟩ := hsrc hne
    obtain ⟨data, n⟩ := src
    obtain rfl : data = some p := hp
    obtain ⟨q, rfl, rfl, rfl⟩ := copy_of_block hne hcopy
    have hbytes : (calculateAllocatedBytes types n).toNat = (sizes types).sum * n.toNat :=
      (allocatedBytes_toNat types n).trans (Nat.mod_eq_of_lt hfit)
    have hsource : h.live p = some ((sizes types).sum * n.toNat) :=
      hlive.trans (congrArg some hbytes)
    constructor
    · exact fun hkept => .inr (sum_of_preserves hne hsource (ha q rfl).1 hbytes hkept)
    · rintro (hempty | hone)
      · exact absurd hempty hne
      · rw [hone, Nat.one_mul] at hsource hbytes
        exact preserves_of_whole hsource ha hclean hbytes hfit

/-! ## Two elements in two bytes, and one -/

/-- A free store with two bytes at `page`. -/
def twoBytes : Heap :=
  { Heap.empty (fun _ => 7) with live := Function.update (fun _ => none) page (some 2) }

/-- A block that `new` may hand out beside it. -/
def nextPage : Block := ⟨8192, by decide⟩

theorem twoBytes_mayReturn (size : Nat) (hsize : size ≤ 2) :
    twoBytes.MayReturn size (some nextPage) := by
  rintro p ⟨⟩
  refine ⟨rfl, ?_, fun q bytes hq => ?_⟩
  · show 8192 + size ≤ 2 ^ 64
    omega
  · rcases eq_or_ne q page with rfl | hne
    · simp only [twoBytes, Function.update_self, Option.some.injEq] at hq
      subst hq
      exact .inr (by decide)
    · simp [twoBytes, Function.update_of_ne hne] at hq

/-- Two elements of one byte. -/
theorem copy_preserves_iff_uint8 :
    ∃ h' t, Soa.copyConstruct twoBytes { mData := some page, mNumElements := 2 } (some nextPage) =
        some (t, h') ∧
      (CopyPreserves [uint8Type] twoBytes h' { mData := some page, mNumElements := 2 } t ↔
        (2 : UInt64) = 0 ∨ ∃ ty, [uint8Type] = [ty] ∧ ty.size = 1) := by
  have hcopy : Soa.copyConstruct twoBytes { mData := some page, mNumElements := 2 }
      (some nextPage) = some (_, _) := rfl
  exact ⟨_, _, hcopy, copy_preserves_iff [uint8Type] (by decide) (fun _ => ⟨page, rfl, rfl⟩) rfl
    (twoBytes_mayReturn 2 le_rfl) hcopy⟩

/-- One element of two bytes: the copy has a block of one byte. -/
theorem copy_loses_bytes :
    ∃ h' t, Soa.HasBlock [uint16Type] twoBytes { mData := some page, mNumElements := 1 } ∧
      twoBytes.MayReturn 1 (some nextPage) ∧
      Soa.copyConstruct twoBytes { mData := some page, mNumElements := 1 } (some nextPage) =
        some (t, h') ∧
      h'.live nextPage = some 1 ∧
      ¬ CopyPreserves [uint16Type] twoBytes h' { mData := some page, mNumElements := 1 } t := by
  refine ⟨_, _, fun _ => ⟨page, rfl, rfl⟩, twoBytes_mayReturn 1 (by decide), rfl, rfl,
    fun hkept => ?_⟩
  obtain ⟨q, bytes, hq, -, hlive, hroom⟩ := hkept.fresh (by decide)
  cases hq
  cases hlive
  exact absurd hroom (by decide)

end FlavoEngine.Core

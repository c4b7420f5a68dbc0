import Mathlib.Data.Set.Lattice
import Mathlib.Order.CompletePartialOrder
import Mathlib.Order.SuccPred.IntervalSucc
import Mathlib.Algebra.Order.Group.Nat
import Mathlib.Data.Nat.SuccPred
import Mathlib.Order.Interval.Set.Basic

/-!
# Tilings

A family of sets tiles a set when its members are pairwise disjoint and cover the set exactly. The
intervals between successive values of a monotone sequence tile the interval from its first to its
last value.

Results:
1. `Tiles.sigma`: tilings of the tiles of a tiling make up one tiling.
2. `tiles_Ico`: consecutive intervals.
3. `tiles_arrays`: arrays of `n` elements each, one array after another; the elements of all arrays
   tile the whole.
4. `arrays_inside_iff`: the same arrays with all sums taken modulo a bound.
-/

namespace FlavoEngine.Lib

/-- The sets `tile i` are pairwise disjoint, and `whole` is their union. -/
structure Tiles {I α : Type} (tile : I → Set α) (whole : Set α) : Prop where
  disjoint : Pairwise fun i j => Disjoint (tile i) (tile j)
  cover : ∀ a, a ∈ whole ↔ ∃ i, a ∈ tile i

namespace Tiles

variable {I α : Type} {tile : I → Set α} {whole : Set α}

theorem subset (h : Tiles tile whole) (i : I) : tile i ⊆ whole :=
  fun a ha => (h.cover a).mpr ⟨i, ha⟩

/-- The tiles of the tiles. -/
theorem sigma (h : Tiles tile whole) {J : I → Type} {part : ∀ i, J i → Set α}
    (hpart : ∀ i, Tiles (part i) (tile i)) : Tiles (fun p : Σ i, J i => part p.1 p.2) whole where
  disjoint := by
    rintro ⟨i, x⟩ ⟨j, y⟩ hne
    by_cases hij : i = j
    · subst hij
      exact (hpart i).disjoint fun hxy => hne (congrArg (Sigma.mk i) hxy)
    · exact (h.disjoint hij).mono ((hpart i).subset x) ((hpart j).subset y)
  cover a := by
    rw [h.cover]
    constructor
    · rintro ⟨i, ha⟩
      obtain ⟨x, hx⟩ := ((hpart i).cover a).mp ha
      exact ⟨⟨i, x⟩, hx⟩
    · rintro ⟨⟨i, x⟩, hx⟩
      exact ⟨i, (hpart i).subset x hx⟩

end Tiles

/-! ## Intervals -/

variable {α : Type} [LinearOrder α]

/-- A point between the first and the last value lies between two successive ones. -/
theorem exists_Ico_of_mem {f : Nat → α} {n : Nat} {a : α} (ha : a ∈ Set.Ico (f 0) (f n)) :
    ∃ i, i < n ∧ a ∈ Set.Ico (f i) (f (i + 1)) := by
  induction n with
  | zero => exact absurd ha.2 (not_lt.mpr ha.1)
  | succ n ih =>
    rcases lt_or_ge a (f n) with hlt | hge
    · obtain ⟨i, hi, hmem⟩ := ih ⟨ha.1, hlt⟩
      exact ⟨i, Nat.lt_succ_of_lt hi, hmem⟩
    · exact ⟨n, Nat.lt_succ_self n, hge, ha.2⟩

theorem tiles_Ico {f : Nat → α} (hf : Monotone f) (n : Nat) :
    Tiles (fun i : Fin n => Set.Ico (f i) (f (i + 1))) (Set.Ico (f 0) (f n)) where
  disjoint i j hne := hf.pairwise_disjoint_on_Ico_succ fun h => hne (Fin.ext h)
  cover a := by
    constructor
    · intro ha
      obtain ⟨i, hi, hmem⟩ := exists_Ico_of_mem ha
      exact ⟨⟨i, hi⟩, hmem⟩
    · rintro ⟨i, hlo, hhi⟩
      exact ⟨(hf (Nat.zero_le i)).trans hlo, hhi.trans_le (hf i.isLt)⟩

/-! ## Arrays one after another -/

/-- Where the array `t` starts, when the elements of the arrays have these sizes and each array has
`n` elements. -/
def arrayStart (sizes : List Nat) (n t : Nat) : Nat :=
  (sizes.take t).sum * n

section Arrays

variable (sizes : List Nat) (n : Nat)

theorem arrayStart_zero : arrayStart sizes n 0 = 0 := by
  simp [arrayStart]

theorem arrayStart_length : arrayStart sizes n sizes.length = sizes.sum * n := by
  simp [arrayStart]

theorem arrayStart_succ {t : Nat} (ht : t < sizes.length) :
    arrayStart sizes n (t + 1) = arrayStart sizes n t + sizes[t] * n := by
  unfold arrayStart
  rw [List.take_add_one, List.getElem?_eq_getElem ht, List.sum_append, Nat.add_mul]
  simp

theorem arrayStart_mono : Monotone (arrayStart sizes n) := by
  refine monotone_nat_of_le_succ fun t => ?_
  rcases Nat.lt_or_ge t sizes.length with ht | ht
  · rw [arrayStart_succ sizes n ht]
    exact Nat.le_add_right _ _
  · unfold arrayStart
    rw [List.take_of_length_le ht, List.take_of_length_le (Nat.le_succ_of_le ht)]

/-- An array ends within the whole. -/
theorem arrayStart_le {t : Nat} (ht : t ≤ sizes.length) :
    arrayStart sizes n t ≤ sizes.sum * n := by
  rw [← arrayStart_length]
  exact arrayStart_mono sizes n ht

/-- Counted modulo `bound`, every array ends within the total only if nothing wraps. -/
theorem arrays_inside_iff {bound : Nat} (hbound : 0 < bound) :
    (∀ t (ht : t < sizes.length),
        arrayStart sizes n t % bound + sizes[t] * n ≤ sizes.sum * n % bound) ↔
      sizes.sum * n < bound := by
  constructor
  · intro hinside
    -- an array that starts below the bound ends below it, and there the next one starts
    have hstart : ∀ t, t ≤ sizes.length → arrayStart sizes n t < bound := by
      intro t
      induction t with
      | zero => exact fun _ => (arrayStart_zero sizes n).trans_lt hbound
      | succ t ih =>
        intro ht
        have hend := hinside t ht
        rw [Nat.mod_eq_of_lt (ih (Nat.le_of_succ_le ht)), ← arrayStart_succ sizes n ht] at hend
        exact hend.trans_lt (Nat.mod_lt _ hbound)
    rw [← arrayStart_length]
    exact hstart sizes.length le_rfl
  · intro hfit t ht
    have hend := arrayStart_le sizes n (Nat.succ_le_of_lt ht)
    rw [arrayStart_succ sizes n ht] at hend
    rw [Nat.mod_eq_of_lt hfit, Nat.mod_eq_of_lt (Nat.lt_of_add_right_lt (hend.trans_lt hfit))]
    exact hend

/-- The elements of one array. -/
theorem tiles_elements (start size n : Nat) :
    Tiles (fun k : Fin n => Set.Ico (start + size * k) (start + size * k + size))
      (Set.Ico start (start + size * n)) := by
  have hmono : Monotone fun k => start + size * k :=
    fun _ _ hle => Nat.add_le_add_left (Nat.mul_le_mul_left size hle) start
  have htiles := tiles_Ico hmono n
  simp only [Nat.mul_zero, Nat.add_zero, Nat.mul_succ, ← Nat.add_assoc] at htiles
  exact htiles

/-- The places of the element `p.2` of the array `p.1`. -/
def arrayElement (p : Σ _ : Fin sizes.length, Fin n) : Set Nat :=
  Set.Ico (arrayStart sizes n p.1 + sizes[p.1] * p.2)
    (arrayStart sizes n p.1 + sizes[p.1] * p.2 + sizes[p.1])

/-- The elements of all the arrays. -/
theorem tiles_arrays : Tiles (arrayElement sizes n) (Set.Ico 0 (sizes.sum * n)) := by
  have harrays := tiles_Ico (arrayStart_mono sizes n) sizes.length
  rw [arrayStart_zero, arrayStart_length] at harrays
  have helements : ∀ t : Fin sizes.length,
      Tiles (fun k : Fin n => Set.Ico (arrayStart sizes n t + sizes[t] * k)
          (arrayStart sizes n t + sizes[t] * k + sizes[t]))
        (Set.Ico (arrayStart sizes n t) (arrayStart sizes n (t + 1))) := by
    intro t
    rw [arrayStart_succ sizes n t.isLt]
    exact tiles_elements (arrayStart sizes n t) sizes[t] n
  exact harrays.sigma helements

end Arrays

end FlavoEngine.Lib

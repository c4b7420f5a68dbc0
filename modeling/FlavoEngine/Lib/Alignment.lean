import Mathlib.Algebra.BigOperators.Ring.List
import Mathlib.Algebra.GCDMonoid.Finset
import Mathlib.Algebra.GCDMonoid.Nat
import Mathlib.Algebra.Ring.Nat

/-!
# Alignment of packed arrays

Arrays of `n` elements each, one array after another, start at multiples of `n`: an array for which
the elements before it take `unit` bytes starts at `unit * n`. Which counts `n` put every array on
its alignment is a matter of one number.

Results:
1. `forall_dvd_mul_iff`: every start is aligned exactly when `n` is a multiple of the granule.
2. `granule_eq_one_iff`: every count will do exactly when the units are aligned.
3. `dvd_take_sum`: they are when the alignment of each array divides the sizes before it.
-/

namespace FlavoEngine.Lib

/-- The counts that align a start. -/
theorem dvd_mul_iff {align unit n : Nat} (hpos : 0 < align) :
    align ∣ unit * n ↔ align / Nat.gcd align unit ∣ n := by
  have hgcd : 0 < Nat.gcd align unit := Nat.gcd_pos_of_pos_left unit hpos
  rw [Nat.div_dvd_iff_dvd_mul (Nat.gcd_dvd_left align unit) hgcd]
  exact dvd_gcd_mul_iff_dvd_mul.symm

section Granule

variable {I : Type} [Fintype I] (align unit : I → Nat)

/-- The least positive count with which every start is aligned. -/
def granule : Nat :=
  Finset.univ.lcm fun i => align i / Nat.gcd (align i) (unit i)

variable {align unit}

theorem forall_dvd_mul_iff (hpos : ∀ i, 0 < align i) {n : Nat} :
    (∀ i, align i ∣ unit i * n) ↔ granule align unit ∣ n := by
  unfold granule
  rw [Finset.lcm_dvd_iff]
  constructor
  · exact fun h i _ => (dvd_mul_iff (hpos i)).mp (h i)
  · exact fun h i => (dvd_mul_iff (hpos i)).mpr (h i (Finset.mem_univ i))

/-- The granule is one exactly when one element of each array leaves the next array aligned. -/
theorem granule_eq_one_iff (hpos : ∀ i, 0 < align i) :
    granule align unit = 1 ↔ ∀ i, align i ∣ unit i := by
  rw [← Nat.dvd_one, ← forall_dvd_mul_iff hpos]
  simp only [Nat.mul_one]

end Granule

/-- What divides the size of every array before `t` divides where `t` starts. -/
theorem dvd_take_sum {sizes : List Nat} {align t : Nat}
    (h : ∀ i (hi : i < sizes.length), i < t → align ∣ sizes[i]) : align ∣ (sizes.take t).sum := by
  have hall : ∀ size ∈ sizes.take t, align ∣ size := by
    intro size hsize
    obtain ⟨i, hi, rfl⟩ := List.mem_iff_getElem.mp hsize
    rw [List.length_take, Nat.lt_min] at hi
    rw [List.getElem_take]
    exact h i hi.2 hi.1
  exact List.dvd_sum hall

end FlavoEngine.Lib

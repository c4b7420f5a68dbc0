import Mathlib.Algebra.GroupWithZero.Nat

/-!
# Even shares of a list

A list is cut into consecutive pieces of given sizes. `shares` are sizes that differ by at most one,
the larger ones first.

Results:
1. `flatten_cut`, `length_of_mem_cut`: the pieces are the front of the list, in order, and have
   their sizes.
2. `sum_shares`: how much the shares take together; `sum_shares_div` for those of an even division.
-/

namespace FlavoEngine.Lib

variable {α : Type}

/-! ## Pieces -/

/-- Consecutive pieces of the given sizes, from the front. -/
def cut : List Nat → List α → List (List α)
  | [], _ => []
  | m :: ms, l => l.take m :: cut ms (l.drop m)

theorem length_cut (ms : List Nat) (l : List α) : (cut ms l).length = ms.length := by
  induction ms generalizing l with
  | nil => rfl
  | cons m ms ih => rw [cut, List.length_cons, ih, List.length_cons]

theorem flatten_cut (ms : List Nat) (l : List α) : (cut ms l).flatten = l.take ms.sum := by
  induction ms generalizing l with
  | nil => rfl
  | cons m ms ih => rw [cut, List.flatten_cons, ih, List.sum_cons, List.take_add]

theorem map_length_cut {ms : List Nat} {l : List α} (h : ms.sum ≤ l.length) :
    (cut ms l).map List.length = ms := by
  induction ms generalizing l with
  | nil => rfl
  | cons m ms ih =>
    rw [List.sum_cons] at h
    have hrest : ms.sum ≤ (l.drop m).length := by
      rw [List.length_drop]
      omega
    rw [cut, List.map_cons, ih hrest, List.length_take, Nat.min_eq_left (by omega)]

theorem length_of_mem_cut {ms : List Nat} {l p : List α} (h : ms.sum ≤ l.length)
    (hp : p ∈ cut ms l) : p.length ∈ ms := by
  have hmem := List.mem_map_of_mem (f := List.length) hp
  rwa [map_length_cut h] at hmem

/-! ## Even sizes -/

/-- The sizes of `k` shares of `d` each, with one more for the first `extra` of them. -/
def shares (d : Nat) : (extra k : Nat) → List Nat
  | _, 0 => []
  | extra, k + 1 => (if extra ≠ 0 then d + 1 else d) :: shares d (extra - 1) k

theorem length_shares (d extra k : Nat) : (shares d extra k).length = k := by
  induction k generalizing extra with
  | zero => rfl
  | succ k ih => rw [shares, List.length_cons, ih]

theorem mem_shares {d extra k m : Nat} (h : m ∈ shares d extra k) : d ≤ m ∧ m ≤ d + 1 := by
  induction k generalizing extra with
  | zero => exact absurd h List.not_mem_nil
  | succ k ih =>
    rcases List.mem_cons.mp h with rfl | h
    · split <;> omega
    · exact ih h

theorem sum_shares (d extra k : Nat) : (shares d extra k).sum = d * k + min extra k := by
  induction k generalizing extra with
  | zero => simp [shares]
  | succ k ih =>
    rw [shares, List.sum_cons, ih, Nat.mul_succ]
    split <;> omega

/-- The first `k` of `total` even shares of `count`. -/
theorem sum_shares_div (count total k : Nat) :
    (shares (count / total) (count - count / total * total) k).sum =
      count / total * k + min (count % total) k := by
  have hmod : count - count / total * total = count % total := by
    have hdiv := Nat.div_add_mod' count total
    omega
  rw [sum_shares, hmod]

/-- All shares together are everything. -/
theorem sum_shares_all {count total : Nat} (h : 0 < total) :
    (shares (count / total) (count - count / total * total) total).sum = count := by
  have hdiv := Nat.div_add_mod' count total
  have hlt := Nat.mod_lt count h
  rw [sum_shares_div]
  omega

/-- All shares but the last leave that one. -/
theorem sum_shares_pred {count total : Nat} (h : 0 < total) :
    (shares (count / total) (count - count / total * total) (total - 1)).sum +
      count / total = count := by
  have hdiv := Nat.div_add_mod' count total
  have hlt := Nat.mod_lt count h
  have hpred : count / total * (total - 1) + count / total = count / total * total := by
    rw [← Nat.mul_succ, Nat.succ_eq_add_one, Nat.sub_add_cancel h]
  rw [sum_shares_div]
  omega

end FlavoEngine.Lib

import Mathlib.Algebra.BigOperators.Group.Finset.Piecewise
import Mathlib.Algebra.GroupWithZero.Nat
import Mathlib.Data.Fintype.BigOperators
import FlavoEngine.Lib.Run

/-!
# Tallies

Each party stands at a place, a place counts for a number, and the tally is the sum over the
parties. Along a run, events are counted.

Results:
1. `tally_update`: the tally after one party has moved.
2. `eventCount_snoc`: the count of the events after one more step.
-/

namespace FlavoEngine.Lib

/-! ## Parties -/

section Parties

variable {P A M : Type} [Fintype P] [AddCommMonoid M]

/-- The sum of what the places of the parties count for. -/
def tally (value : A → M) (place : P → A) : M :=
  ∑ p, value (place p)

theorem tally_const {value : A → M} {a : A} (h : value a = 0) :
    tally value (fun _ : P => a) = 0 :=
  Finset.sum_eq_zero fun _ _ => h

variable [DecidableEq P]

/-- One party moves to `a`. -/
theorem tally_update (value : A → M) (place : P → A) (p : P) (a : A) :
    tally value (Function.update place p a) + value (place p) = tally value place + value a := by
  have hcomp : (fun q => value (Function.update place p a q)) =
      Function.update (fun q => value (place q)) p (value a) :=
    Function.comp_update value place p a
  unfold tally
  rw [hcomp, Finset.sum_update_of_mem (Finset.mem_univ p), Finset.sdiff_singleton_eq_erase,
    ← Finset.add_sum_erase _ (fun q => value (place q)) (Finset.mem_univ p), add_assoc, add_comm,
    add_comm (value (place p))]

end Parties

/-! ## Events -/

section Events

variable {S L : Type}

/-- How many events there are in the transitions, where `event` counts those of one transition. -/
def eventCount (event : S → L → Nat) (tr : List (S × L × S)) : Nat :=
  (tr.map fun t => event t.1 t.2.1).sum

theorem eventCount_snoc (event : S → L → Nat) (tr : List (S × L × S)) (s s' : S) (l : L) :
    eventCount event (tr ++ [(s, l, s')]) = eventCount event tr + event s l := by
  simp [eventCount]

end Events

end FlavoEngine.Lib

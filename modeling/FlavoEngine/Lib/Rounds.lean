import Mathlib.Logic.Function.Basic
import Mathlib.Logic.Relation
import FlavoEngine.Lib.Run

/-!
# Rounds

Work in rounds. Every party launches once in a round, and the round is closed when all parties have
finished. The system is an account of three numbers: the rounds closed, and for each party how often
it was launched and how often it finished.

Results:
1. `Rounds.paced_of_steps`: a party is never more than one launch ahead of the closed rounds, and
   never behind them.
2. `Run.simulates`: a system whose steps are account steps, or leave the account alone, has runs
   that are runs of the account.
-/

namespace FlavoEngine.Lib

variable {κ : Type}

/-- The account of a system that works in rounds. -/
structure Rounds (κ : Type) where
  closed : Nat
  launched : κ → Nat
  finished : κ → Nat

namespace Rounds

/-- The account before the first round. -/
def empty : Rounds κ :=
  ⟨0, fun _ => 0, fun _ => 0⟩

/-- The steps of the parties, and the end of a round. -/
inductive Step [DecidableEq κ] : Rounds κ → Rounds κ → Prop
  | launch {r : Rounds κ} (k : κ) : r.launched k = r.closed →
      Step r { r with launched := Function.update r.launched k (r.launched k + 1) }
  | finish {r : Rounds κ} (k : κ) : r.finished k < r.launched k →
      Step r { r with finished := Function.update r.finished k (r.finished k + 1) }
  | close {r : Rounds κ} : (∀ k, r.finished k = r.closed + 1) →
      Step r { r with closed := r.closed + 1 }

/-- Every party is in the current round. -/
structure Paced (r : Rounds κ) : Prop where
  closed_le : ∀ k, r.closed ≤ r.finished k
  finished_le : ∀ k, r.finished k ≤ r.launched k
  launched_le : ∀ k, r.launched k ≤ r.closed + 1

theorem paced_empty : Paced (empty : Rounds κ) :=
  ⟨fun _ => Nat.le_refl _, fun _ => Nat.le_refl _, fun _ => Nat.zero_le _⟩

variable {r r' : Rounds κ}

/-- In a paced account no party has two launches open. -/
theorem Paced.open_le_one (h : Paced r) (k : κ) : r.launched k - r.finished k ≤ 1 := by
  have hc := h.closed_le k
  have hl := h.launched_le k
  omega

variable [DecidableEq κ]

theorem Paced.step (h : Paced r) (hs : Step r r') : Paced r' := by
  cases hs with
  | launch k hk =>
    refine ⟨h.closed_le, fun j => ?_, fun j => ?_⟩
    all_goals
      have hf := h.finished_le j
      have hl := h.launched_le j
      by_cases hj : j = k
      · subst hj
        simp only [Function.update_self]
        omega
      · simp only [Function.update_of_ne hj]
        omega
  | finish k hk =>
    refine ⟨fun j => ?_, fun j => ?_, h.launched_le⟩
    all_goals
      have hc := h.closed_le j
      have hf := h.finished_le j
      by_cases hj : j = k
      · subst hj
        simp only [Function.update_self]
        omega
      · simp only [Function.update_of_ne hj]
        omega
  | close hall =>
    refine ⟨fun j => ?_, h.finished_le, fun j => ?_⟩
    · exact Nat.le_of_eq (hall j).symm
    · exact Nat.le_succ_of_le (h.launched_le j)

theorem paced_of_steps (h : Paced r) (hs : Relation.ReflTransGen Step r r') : Paced r' := by
  induction hs with
  | refl => exact h
  | tail _ hstep ih => exact ih.step hstep

end Rounds

/-- Simulation of a run: while the invariant holds, each step is a step of the simulating relation
or leaves the simulating state as it is. -/
theorem Run.simulates {S L A : Type} {R : S → L → S → Prop} {T : A → A → Prop} {f : S → A}
    {I : S → Prop} {C : S → L → Prop} {s₀ s : S} {tr : List (S × L × S)} (hinit : I s₀)
    (hkeep : ∀ {s l s'}, I s → C s l → R s l s' → I s')
    (hsim : ∀ {s l s'}, I s → C s l → R s l s' → f s' = f s ∨ T (f s) (f s'))
    (h : Run R s₀ tr s) (hC : Meets C tr) : Relation.ReflTransGen T (f s₀) (f s) := by
  induction h with
  | nil => exact .refl
  | snoc hrun hstep ih =>
    obtain ⟨hprev, hlast⟩ := Run.meets_snoc.mp hC
    have hinv := hrun.inv hinit hkeep hprev
    rcases hsim hinv hlast hstep with heq | ht
    · rw [heq]
      exact ih hprev
    · exact (ih hprev).tail ht

end FlavoEngine.Lib

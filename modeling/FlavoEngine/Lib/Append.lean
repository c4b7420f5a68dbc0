import Mathlib.Logic.Function.Basic

/-!
# Texts appended in pieces

Writers append their texts to one shared sequence, each in several pieces. `Appended parts order
seq` says that `seq` is the complete texts of `order`, one after another, followed by what the one
writer in the middle of its text has appended; `parts w` is that part of the writer `w`, empty when
it is between texts.

Results:
1. `Appended.extend`: a writer may append a piece while no other is in the middle of a text.
2. `Appended.finish`: a writer whose text is complete is entered in the order.
3. `Appended.flatten_eq`: with no text unfinished, the sequence is the complete texts.
-/

namespace FlavoEngine.Lib

variable {W α : Type}

/-- `seq` is the texts of `order` and at most one unfinished text after them. -/
def Appended (parts : W → List α) (order : List (W × List α)) (seq : List α) : Prop :=
  ∃ owner : Option W, seq = (order.map (·.2)).flatten ++ owner.elim [] parts ∧
    ∀ w, parts w ≠ [] → owner = some w

/-- The texts that one writer has in the order. -/
def textsOf [DecidableEq W] (order : List (W × List α)) (w : W) : List (List α) :=
  (order.filter fun e => e.1 = w).map (·.2)

namespace Appended

variable {parts : W → List α} {order : List (W × List α)} {seq : List α}

theorem start : Appended (fun _ : W => ([] : List α)) [] [] :=
  ⟨none, rfl, fun _ h => absurd rfl h⟩

theorem flatten_eq (h : Appended parts order seq) (hnone : ∀ w, parts w = []) :
    seq = (order.map (·.2)).flatten := by
  obtain ⟨owner, hseq, -⟩ := h
  cases owner with
  | none => simpa using hseq
  | some w => simpa [hnone w] using hseq

/-- When no other writer is in the middle of a text, the sequence ends with the part of `w`. -/
theorem focus (h : Appended parts order seq) {w : W} (hothers : ∀ u, u ≠ w → parts u = []) :
    seq = (order.map (·.2)).flatten ++ parts w := by
  obtain ⟨owner, hseq, howner⟩ := h
  cases owner with
  | none =>
    have hw : parts w = [] := by
      by_contra hne
      exact nomatch howner w hne
    rw [hw]
    exact hseq
  | some u =>
    rcases Classical.em (u = w) with rfl | hne
    · exact hseq
    · have hw : parts w = [] := by
        by_contra hpart
        exact hne (Option.some.inj (howner w hpart))
      rw [hw, ← hothers u hne]
      exact hseq

/-- The sequence ends with the unfinished text. -/
theorem at_part (h : Appended parts order seq) {w : W} (hpart : parts w ≠ []) :
    seq = (order.map (·.2)).flatten ++ parts w := by
  obtain ⟨owner, hseq, howner⟩ := h
  rw [howner w hpart] at hseq
  exact hseq

variable [DecidableEq W]

theorem extend (h : Appended parts order seq) {w : W} (hothers : ∀ u, u ≠ w → parts u = [])
    (piece : List α) :
    Appended (Function.update parts w (parts w ++ piece)) order (seq ++ piece) := by
  refine ⟨some w, ?_, ?_⟩
  · rw [h.focus hothers]
    simp
  · intro u hu
    rcases eq_or_ne u w with rfl | hne
    · rfl
    · rw [Function.update_of_ne hne] at hu
      exact absurd (hothers u hne) hu

theorem finish (h : Appended parts order seq) {w : W} (hothers : ∀ u, u ≠ w → parts u = []) :
    Appended (Function.update parts w []) (order ++ [(w, parts w)]) seq := by
  refine ⟨none, ?_, ?_⟩
  · rw [h.focus hothers]
    simp
  · intro u hu
    rcases eq_or_ne u w with rfl | hne
    · exact absurd (Function.update_self ..) hu
    · rw [Function.update_of_ne hne] at hu
      exact absurd (hothers u hne) hu

end Appended

section TextsOf

variable [DecidableEq W]

theorem textsOf_snoc_self (order : List (W × List α)) (w : W) (text : List α) :
    textsOf (order ++ [(w, text)]) w = textsOf order w ++ [text] := by
  simp [textsOf]

theorem textsOf_snoc_of_ne (order : List (W × List α)) {u w : W} (hne : w ≠ u) (text : List α) :
    textsOf (order ++ [(w, text)]) u = textsOf order u := by
  simp [textsOf, hne]

end TextsOf

end FlavoEngine.Lib

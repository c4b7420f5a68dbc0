import Mathlib.Data.Set.Insert
import Mathlib.Logic.Equiv.Basic

/-!
# Unique ownership

Owners `I` hold at most one resource each out of `B`. `Owned live ref` says that the references
are a bijection between the owners that hold something and the live resources: nothing dangles,
nothing is held twice and nothing is lost.

Results: `Owned.empty`, and that the relation is kept when a fresh resource is acquired
(`Owned.acquire`), when an owner gives its resource back (`Owned.release`, `Owned.giveBack`) and
when two owners exchange what they hold (`Owned.exchange`). `Owned.none_live`: with no owner left
nothing is live.
-/

namespace FlavoEngine.Lib

variable {I B : Type}

/-- The references `ref` and the live resources `live` match one to one. -/
structure Owned (live : Set B) (ref : I → Option B) : Prop where
  live_of_ref : ∀ {i b}, ref i = some b → b ∈ live
  unique : ∀ {i j b}, ref i = some b → ref j = some b → i = j
  ref_of_live : ∀ {b}, b ∈ live → ∃ i, ref i = some b

namespace Owned

variable {live : Set B} {ref : I → Option B}

theorem empty : Owned (∅ : Set B) (fun _ : I => none) where
  live_of_ref h := nomatch h
  unique h := nomatch h
  ref_of_live h := absurd h (Set.notMem_empty _)

/-- With no owner left nothing is live. -/
theorem none_live (h : Owned live ref) (hnone : ∀ i, ref i = none) : live = ∅ := by
  refine Set.eq_empty_iff_forall_notMem.mpr fun b hb => ?_
  obtain ⟨i, hi⟩ := h.ref_of_live hb
  rw [hnone i] at hi
  exact nomatch hi

/-- Renaming the owners by a bijection keeps the match. -/
theorem comp_equiv (h : Owned live ref) (e : I ≃ I) : Owned live (ref ∘ e) where
  live_of_ref hi := h.live_of_ref hi
  unique hi hj := e.injective (h.unique hi hj)
  ref_of_live hb := by
    obtain ⟨i, hi⟩ := h.ref_of_live hb
    exact ⟨e.symm i, by rw [Function.comp_apply, e.apply_symm_apply]; exact hi⟩

variable [DecidableEq I]

/-- An owner with nothing takes a resource that was not live. -/
theorem acquire (h : Owned live ref) {i : I} {b : B} (hi : ref i = none) (hb : b ∉ live) :
    Owned (insert b live) (Function.update ref i (some b)) where
  live_of_ref {j c} hj := by
    by_cases hji : j = i
    · subst hji
      rw [Function.update_self, Option.some.injEq] at hj
      exact Set.mem_insert_iff.mpr (.inl hj.symm)
    · rw [Function.update_of_ne hji] at hj
      exact Set.mem_insert_of_mem _ (h.live_of_ref hj)
  unique {j k c} hj hk := by
    by_cases hji : j = i <;> by_cases hki : k = i
    · rw [hji, hki]
    · subst hji
      rw [Function.update_self, Option.some.injEq] at hj
      rw [Function.update_of_ne hki, ← hj] at hk
      exact absurd (h.live_of_ref hk) hb
    · subst hki
      rw [Function.update_self, Option.some.injEq] at hk
      rw [Function.update_of_ne hji, ← hk] at hj
      exact absurd (h.live_of_ref hj) hb
    · rw [Function.update_of_ne hji] at hj
      rw [Function.update_of_ne hki] at hk
      exact h.unique hj hk
  ref_of_live {c} hc := by
    rcases Set.mem_insert_iff.mp hc with rfl | hc
    · exact ⟨i, Function.update_self ..⟩
    · obtain ⟨j, hj⟩ := h.ref_of_live hc
      have hji : j ≠ i := fun e => by rw [e, hi] at hj; exact nomatch hj
      exact ⟨j, by rw [Function.update_of_ne hji]; exact hj⟩

/-- The owner of `b` gives it back. -/
theorem release (h : Owned live ref) {i : I} {b : B} (hi : ref i = some b) :
    Owned (live \ {b}) (Function.update ref i none) where
  live_of_ref {j c} hj := by
    by_cases hji : j = i
    · subst hji
      rw [Function.update_self] at hj
      exact nomatch hj
    · rw [Function.update_of_ne hji] at hj
      refine ⟨h.live_of_ref hj, fun hc => hji ?_⟩
      rw [Set.mem_singleton_iff.mp hc] at hj
      exact h.unique hj hi
  unique {j k c} hj hk := by
    have hne : ∀ {l : I}, Function.update ref i none l = some c → ref l = some c := by
      intro l hl
      by_cases hli : l = i
      · subst hli
        rw [Function.update_self] at hl
        exact nomatch hl
      · rwa [Function.update_of_ne hli] at hl
    exact h.unique (hne hj) (hne hk)
  ref_of_live {c} hc := by
    obtain ⟨j, hj⟩ := h.ref_of_live hc.1
    have hji : j ≠ i := fun e => hc.2 (by rw [e, hi, Option.some.injEq] at hj; exact hj.symm)
    exact ⟨j, by rw [Function.update_of_ne hji]; exact hj⟩

/-- Two owners exchange what they hold; they may be one and the same. -/
theorem exchange (h : Owned live ref) (i j : I) :
    Owned live (Function.update (Function.update ref i (ref j)) j (ref i)) := by
  have hswap : Function.update (Function.update ref i (ref j)) j (ref i) =
      ref ∘ Equiv.swap i j := by
    funext k
    by_cases hkj : k = j
    · subst hkj
      rw [Function.update_self, Function.comp_apply, Equiv.swap_apply_right]
    · rw [Function.update_of_ne hkj]
      by_cases hki : k = i
      · subst hki
        rw [Function.update_self, Function.comp_apply, Equiv.swap_apply_left]
      · rw [Function.update_of_ne hki, Function.comp_apply, Equiv.swap_apply_of_ne_of_ne hki hkj]
  rw [hswap]
  exact h.comp_equiv _

/-- Clearing an owner that holds nothing changes nothing. -/
theorem drop_none (h : Owned live ref) {i : I} (hi : ref i = none) :
    Owned live (Function.update ref i none) := by
  rw [← hi, Function.update_eq_self]
  exact h

/-- An owner gives back what it holds, if anything. -/
theorem giveBack (h : Owned live ref) (i : I) :
    Owned (live \ {b | ref i = some b}) (Function.update ref i none) := by
  cases hi : ref i with
  | none =>
    have hsame : live \ {b | none = some b} = live :=
      Set.ext fun _ => ⟨And.left, fun hb => ⟨hb, fun hnone => by cases hnone⟩⟩
    rw [hsame]
    exact h.drop_none hi
  | some c =>
    have hone : {b | some c = some b} = ({c} : Set B) := by
      ext b
      rw [Set.mem_ofPred_eq, Option.some.injEq, Set.mem_singleton_iff, eq_comm]
    rw [hone]
    exact h.release hi

end Owned

end FlavoEngine.Lib

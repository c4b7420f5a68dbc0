import Mathlib.Data.List.Nodup
import Mathlib.Data.Set.Insert

/-!
# Things in places

Each thing lies in exactly one place, once. A place is a list of things, such as a queue. Things
move from place to place, and new ones arrive.

Results: `Placed.empty`, and that the placement is kept when things move between two places
(`Placed.move`), when they are rearranged in place (`Placed.rearrange`) and when new ones arrive
(`Placed.arrive`). `Placed.unique`: the place of a thing.
-/

namespace FlavoEngine.Lib

variable {P T : Type}

/-- The things in the places are those of `all`, each in one place and there once. -/
structure Placed (things : P → List T) (all : Set T) : Prop where
  nodup : ∀ p, (things p).Nodup
  unique : ∀ {p q t}, t ∈ things p → t ∈ things q → p = q
  cover : ∀ t, t ∈ all ↔ ∃ p, t ∈ things p

namespace Placed

variable {things things' : P → List T} {all : Set T}

theorem empty : Placed (fun _ : P => ([] : List T)) ∅ where
  nodup _ := List.nodup_nil
  unique h := absurd h List.not_mem_nil
  cover _ := iff_of_false (Set.notMem_empty _) fun ⟨_, h⟩ => absurd h List.not_mem_nil

theorem disjoint (h : Placed things all) {p q : P} (hne : p ≠ q) :
    List.Disjoint (things p) (things q) :=
  fun _ hp hq => hne (h.unique hp hq)

/-- The places hold the same things, each in an order of its own. -/
theorem rearrange (h : Placed things all) (hperm : ∀ p, (things' p).Perm (things p)) :
    Placed things' all where
  nodup p := (hperm p).nodup_iff.mpr (h.nodup p)
  unique hp hq := h.unique ((hperm _).mem_iff.mp hp) ((hperm _).mem_iff.mp hq)
  cover t := (h.cover t).trans (exists_congr fun p => (hperm p).mem_iff.symm)

/-- Things move between the places `p` and `q`, or change their order there. -/
theorem move (h : Placed things all) {p q : P} (hne : p ≠ q)
    (hperm : (things' p ++ things' q).Perm (things p ++ things q))
    (hother : ∀ r, r ≠ p → r ≠ q → things' r = things r) : Placed things' all := by
  have hboth : (things' p ++ things' q).Nodup :=
    hperm.nodup_iff.mpr ((h.nodup p).append (h.nodup q) (h.disjoint hne))
  obtain ⟨hp, hq, hapart⟩ := List.nodup_append'.mp hboth
  have hmem : ∀ t, t ∈ things' p ∨ t ∈ things' q ↔ t ∈ things p ∨ t ∈ things q := by
    intro t
    rw [← List.mem_append, ← List.mem_append, hperm.mem_iff]
  -- a thing is where it was, or at one of the two places, as before
  have hwhere : ∀ {r t}, t ∈ things' r →
      (t ∈ things r ∧ r ≠ p ∧ r ≠ q) ∨ ((r = p ∨ r = q) ∧ (t ∈ things p ∨ t ∈ things q)) := by
    intro r t hr
    rcases eq_or_ne r p with rfl | hrp
    · exact .inr ⟨.inl rfl, (hmem t).mp (.inl hr)⟩
    rcases eq_or_ne r q with rfl | hrq
    · exact .inr ⟨.inr rfl, (hmem t).mp (.inr hr)⟩
    rw [hother r hrp hrq] at hr
    exact .inl ⟨hr, hrp, hrq⟩
  have hfar : ∀ {r t}, t ∈ things r → r ≠ p → r ≠ q → ¬ (t ∈ things p ∨ t ∈ things q) := by
    rintro r t hr hrp hrq (ht | ht)
    · exact hrp (h.unique hr ht)
    · exact hrq (h.unique hr ht)
  constructor
  case nodup =>
    intro r
    rcases eq_or_ne r p with rfl | hrp
    · exact hp
    rcases eq_or_ne r q with rfl | hrq
    · exact hq
    rw [hother r hrp hrq]
    exact h.nodup r
  case unique =>
    intro r s t hr hs
    rcases hwhere hr with ⟨hr', hrp, hrq⟩ | ⟨hrpq, hold⟩
    · rcases hwhere hs with ⟨hs', -, -⟩ | ⟨-, hold⟩
      · exact h.unique hr' hs'
      · exact absurd hold (hfar hr' hrp hrq)
    · rcases hwhere hs with ⟨hs', hsp, hsq⟩ | ⟨hspq, -⟩
      · exact absurd hold (hfar hs' hsp hsq)
      · rcases hrpq with rfl | rfl <;> rcases hspq with rfl | rfl
        · rfl
        · exact absurd hs (hapart hr)
        · exact absurd hr (hapart hs)
        · rfl
  case cover =>
    intro t
    rw [h.cover]
    constructor
    · rintro ⟨r, hr⟩
      by_cases hold : t ∈ things p ∨ t ∈ things q
      · exact ((hmem t).mpr hold).elim (fun ht => ⟨p, ht⟩) fun ht => ⟨q, ht⟩
      · have hrp : r ≠ p := fun heq => hold (.inl (heq ▸ hr))
        have hrq : r ≠ q := fun heq => hold (.inr (heq ▸ hr))
        exact ⟨r, by rw [hother r hrp hrq]; exact hr⟩
    · rintro ⟨r, hr⟩
      rcases hwhere hr with ⟨hr', -, -⟩ | ⟨-, hold⟩
      · exact ⟨r, hr'⟩
      · exact hold.elim (fun ht => ⟨p, ht⟩) fun ht => ⟨q, ht⟩

/-- New things arrive at the place `p`. -/
theorem arrive (h : Placed things all) {p : P} {ts : List T} (hnodup : ts.Nodup)
    (hnew : ∀ t ∈ ts, t ∉ all) (hp : (things' p).Perm (things p ++ ts))
    (hother : ∀ r, r ≠ p → things' r = things r) : Placed things' (all ∪ {t | t ∈ ts}) := by
  have hfar : ∀ {r t}, t ∈ things r → t ∉ ts := fun hr ht => hnew _ ht ((h.cover _).mpr ⟨_, hr⟩)
  have hmem : ∀ t, t ∈ things' p ↔ t ∈ things p ∨ t ∈ ts := by
    intro t
    rw [hp.mem_iff, List.mem_append]
  constructor
  · intro r
    rcases eq_or_ne r p with rfl | hrp
    · exact hp.nodup_iff.mpr ((h.nodup r).append hnodup fun _ hr ht => hfar hr ht)
    · rw [hother r hrp]
      exact h.nodup r
  · intro r s t hr hs
    by_contra hrs
    rcases eq_or_ne r p with rfl | hrp
    · rw [hother s (Ne.symm hrs)] at hs
      rcases (hmem t).mp hr with hr | hr
      · exact hrs (h.unique hr hs)
      · exact hfar hs hr
    rw [hother r hrp] at hr
    rcases eq_or_ne s p with rfl | hsp
    · rcases (hmem t).mp hs with hs | hs
      · exact hrs (h.unique hr hs)
      · exact hfar hr hs
    rw [hother s hsp] at hs
    exact hrs (h.unique hr hs)
  · intro t
    rw [Set.mem_union, h.cover]
    constructor
    · rintro (⟨r, hr⟩ | ht)
      · rcases eq_or_ne r p with rfl | hrp
        · exact ⟨r, (hmem t).mpr (.inl hr)⟩
        · exact ⟨r, by rw [hother r hrp]; exact hr⟩
      · exact ⟨p, (hmem t).mpr (.inr ht)⟩
    · rintro ⟨r, hr⟩
      rcases eq_or_ne r p with rfl | hrp
      · rcases (hmem t).mp hr with hr | ht
        · exact .inl ⟨r, hr⟩
        · exact .inr ht
      · rw [hother r hrp] at hr
        exact .inl ⟨r, hr⟩

end Placed

end FlavoEngine.Lib

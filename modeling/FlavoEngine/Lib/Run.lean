/-!
# Labelled runs

A transition system is a relation `R s l s'`: in the state `s` the labelled step `l` may lead to
`s'`. `Run R s₀ tr s` is a finite run from `s₀` to `s`; `tr` lists its transitions in order, each
with the state before it, its label and the state after it.

Results:
1. `Run.inv`, `Run.inv_mem`: an invariant kept by every step that meets a condition `C` holds in
   every state of a run whose steps all meet `C`.
2. `Run.forall_iff`: `C` is the exact condition of a property `P` of transitions, when steps that
   meet it keep the invariant and have `P`, and a step that misses it loses `P`.
3. `Run.sticky`: what a transition establishes and every later step keeps holds before every later
   transition.
4. `exec`, `exists_run`: a step function replays a list of labels, and the replay is a run.
5. `Run.simulate`: a run is mapped to a run of another system, some of its steps to none.
-/

namespace FlavoEngine.Lib

variable {S L : Type}

/-- A finite run of `R` from `s₀`, with its transitions in the order they were taken. -/
inductive Run (R : S → L → S → Prop) (s₀ : S) : List (S × L × S) → S → Prop
  | nil : Run R s₀ [] s₀
  | snoc {tr : List (S × L × S)} {s s' : S} {l : L} :
      Run R s₀ tr s → R s l s' → Run R s₀ (tr ++ [(s, l, s')]) s'

/-- Every transition of the run was taken by a step that meets `C`. -/
def Meets (C : S → L → Prop) (tr : List (S × L × S)) : Prop :=
  ∀ t ∈ tr, C t.1 t.2.1

namespace Run

variable {R : S → L → S → Prop} {s₀ s : S} {tr : List (S × L × S)}

theorem meets_snoc {C : S → L → Prop} {s s' : S} {l : L} :
    Meets C (tr ++ [(s, l, s')]) ↔ Meets C tr ∧ C s l := by
  simp [Meets, or_imp, forall_and]

/-- A run with a condition on its steps is a run whose every transition is a step of `R`. -/
theorem step_of_mem (h : Run R s₀ tr s) {t : S × L × S} (ht : t ∈ tr) : R t.1 t.2.1 t.2.2 := by
  induction h with
  | nil => exact absurd ht List.not_mem_nil
  | snoc _ hstep ih =>
    rcases List.mem_append.mp ht with ht | ht
    · exact ih ht
    · rw [List.mem_singleton] at ht
      subst ht
      exact hstep

/-- The transition `t` of a run starts where a prefix of the run ends. -/
theorem reach_of_mem (h : Run R s₀ tr s) {t : S × L × S} (ht : t ∈ tr) :
    ∃ pre, pre ++ [t] <+: tr ∧ Run R s₀ pre t.1 := by
  induction h with
  | nil => exact absurd ht List.not_mem_nil
  | @snoc tr s s' l hrun _ ih =>
    rcases List.mem_append.mp ht with ht | ht
    · obtain ⟨pre, hpre, hreach⟩ := ih ht
      exact ⟨pre, hpre.trans (List.prefix_append _ _), hreach⟩
    · rw [List.mem_singleton] at ht
      subst ht
      exact ⟨tr, List.prefix_rfl, hrun⟩

/-- Two runs one after the other. -/
theorem append {s' : S} {tr' : List (S × L × S)} (h : Run R s₀ tr s) (h' : Run R s tr' s') :
    Run R s₀ (tr ++ tr') s' := by
  induction h' with
  | nil =>
    rw [List.append_nil]
    exact h
  | snoc _ hstep ih =>
    rw [← List.append_assoc]
    exact .snoc ih hstep

/-- An invariant kept by every step that meets `C` holds at the end of a run whose steps all
meet `C`. -/
theorem inv {I : S → Prop} {C : S → L → Prop} (hinit : I s₀)
    (hkeep : ∀ {s l s'}, I s → C s l → R s l s' → I s')
    (h : Run R s₀ tr s) (hC : Meets C tr) : I s := by
  induction h with
  | nil => exact hinit
  | snoc _ hstep ih =>
    obtain ⟨hprev, hlast⟩ := meets_snoc.mp hC
    exact hkeep (ih hprev) hlast hstep

/-- The same invariant holds before and after every transition of the run. -/
theorem inv_mem {I : S → Prop} {C : S → L → Prop} (hinit : I s₀)
    (hkeep : ∀ {s l s'}, I s → C s l → R s l s' → I s')
    (h : Run R s₀ tr s) (hC : Meets C tr) {t : S × L × S} (ht : t ∈ tr) :
    I t.1 ∧ I t.2.2 := by
  obtain ⟨pre, hpre, hreach⟩ := h.reach_of_mem ht
  have hpreC : Meets C pre := fun u hu =>
    hC u (hpre.subset (List.mem_append_left _ hu))
  have hbefore : I t.1 := hreach.inv hinit hkeep hpreC
  exact ⟨hbefore, hkeep hbefore (hC t ht) (h.step_of_mem ht)⟩

/-- An invariant of every step holds at the end of every run. -/
theorem inv_all {I : S → Prop} (hinit : I s₀)
    (hkeep : ∀ {s l s'}, I s → R s l s' → I s') (h : Run R s₀ tr s) : I s :=
  h.inv (C := fun _ _ => True) hinit (fun hi _ hs => hkeep hi hs) (fun _ _ => trivial)

/-- The exact condition of a property of transitions. While the steps meet `C` the invariant is
kept and `P` holds; the first step that misses `C` starts in a state with the invariant and loses
`P`. So a run has `P` throughout if and only if all its steps meet `C`. -/
theorem forall_iff {I : S → Prop} {C : S → L → Prop} {P : S → L → S → Prop} (hinit : I s₀)
    (hkeep : ∀ {s l s'}, I s → C s l → R s l s' → I s' ∧ P s l s')
    (hlose : ∀ {s l s'}, I s → ¬ C s l → R s l s' → ¬ P s l s')
    (h : Run R s₀ tr s) : (∀ t ∈ tr, P t.1 t.2.1 t.2.2) ↔ Meets C tr := by
  constructor
  · intro hP
    induction h with
    | nil => exact fun _ ht => absurd ht List.not_mem_nil
    | @snoc tr s s' l hrun hstep ih =>
      have hprev : Meets C tr := ih fun t ht => hP t (List.mem_append_left _ ht)
      have hinv : I s := hrun.inv hinit (fun hi hc hs => (hkeep hi hc hs).1) hprev
      refine meets_snoc.mpr ⟨hprev, Classical.byContradiction fun hc => ?_⟩
      exact hlose hinv hc hstep (hP (s, l, s') (by simp))
  · intro hC t ht
    have hinv : I t.1 :=
      (h.inv_mem hinit (fun hi hc hs => (hkeep hi hc hs).1) hC ht).1
    exact (hkeep hinv (hC t ht) (h.step_of_mem ht)).2

/-- What the transition `t` establishes and every step keeps still holds before every transition
that follows `t`, and at the end of the run. -/
theorem sticky {Q : S → Prop} (hkeep : ∀ {s l s'}, Q s → R s l s' → Q s')
    (h : Run R s₀ tr s) {pre post : List (S × L × S)} {t : S × L × S}
    (htr : tr = pre ++ t :: post) (hest : Q t.2.2) : (∀ u ∈ post, Q u.1) ∧ Q s := by
  induction h generalizing post with
  | nil => simp at htr
  | @snoc tr s s' l _ hstep ih =>
    rcases List.eq_nil_or_concat post with rfl | ⟨init, u, rfl⟩
    · obtain ⟨_, hlast⟩ := List.append_inj' htr rfl
      rw [List.cons.injEq] at hlast
      exact ⟨fun _ hu => absurd hu List.not_mem_nil, by rw [← hlast.1] at hest; exact hest⟩
    · rw [List.concat_eq_append, ← List.cons_append, ← List.append_assoc] at htr
      obtain ⟨hprev, hlast⟩ := List.append_inj' htr rfl
      rw [List.cons.injEq] at hlast
      obtain ⟨hinit, hend⟩ := ih hprev
      refine ⟨fun v hv => ?_, hkeep hend hstep⟩
      rw [List.concat_eq_append] at hv
      rcases List.mem_append.mp hv with hv | hv
      · exact hinit v hv
      · rw [List.mem_singleton] at hv
        rw [hv, ← hlast.1]
        exact hend

end Run

/-! ## Simulation -/

/-- The transitions as another system sees them: `f` maps the states, and `g` tells the label of a
step, or that the step does not concern the other system. -/
def image {S' L' : Type} (f : S → S') (g : S → L → Option L') (tr : List (S × L × S)) :
    List (S' × L' × S') :=
  tr.filterMap fun t => (g t.1 t.2.1).map fun l => (f t.1, l, f t.2.2)

/-- A run whose steps are mapped to steps, or to none, is mapped to a run. -/
theorem Run.simulate {S' L' : Type} {R : S → L → S → Prop} {R' : S' → L' → S' → Prop} {s₀ s : S}
    {tr : List (S × L × S)} {I : S → Prop} {f : S → S'} {g : S → L → Option L'} (hinit : I s₀)
    (hkeep : ∀ {s l s'}, I s → R s l s' → I s')
    (hnone : ∀ {s l s'}, I s → R s l s' → g s l = none → f s' = f s)
    (hsome : ∀ {s l s' l'}, I s → R s l s' → g s l = some l' → R' (f s) l' (f s'))
    (h : Run R s₀ tr s) : Run R' (f s₀) (image f g tr) (f s) := by
  induction h with
  | nil => exact .nil
  | @snoc tr s s' l hrun hstep ih =>
    have hI := hrun.inv_all hinit hkeep
    unfold image
    rw [List.filterMap_append]
    cases hl : g s l with
    | none =>
      rw [List.filterMap_cons_none (by rw [hl]; rfl), List.filterMap_nil, List.append_nil,
        hnone hI hstep hl]
      exact ih
    | some l' =>
      rw [List.filterMap_cons_some (by rw [hl]; rfl), List.filterMap_nil]
      exact .snoc ih (hsome hI hstep hl)

/-! ## Replaying a list of labels -/

/-- Replay the labels in order; the result lists the transitions taken and the last state. -/
def exec (step : S → L → Option S) : S → List L → Option (List (S × L × S) × S)
  | s, [] => some ([], s)
  | s, l :: ls =>
    match step s l with
    | none => none
    | some s' => (exec step s' ls).map fun r => ((s, l, s') :: r.1, r.2)

theorem meets_of_all {C : S → L → Prop} [∀ s, DecidablePred (C s)] {tr : List (S × L × S)}
    (h : (tr.all fun t => decide (C t.1 t.2.1)) = true) : Meets C tr :=
  fun t ht => of_decide_eq_true (List.all_eq_true.mp h t ht)

theorem Run.cons {R : S → L → S → Prop} {s₀ s₁ s : S} {l : L} {tr : List (S × L × S)}
    (hstep : R s₀ l s₁) (h : Run R s₁ tr s) : Run R s₀ ((s₀, l, s₁) :: tr) s := by
  induction h with
  | nil => exact Run.snoc .nil hstep
  | snoc _ hlast ih => exact Run.snoc ih hlast

/-- A replay is a run of the relation that the step function computes, with the labels replayed. -/
theorem run_of_exec {step : S → L → Option S} {R : S → L → S → Prop}
    (hR : ∀ {s l s'}, step s l = some s' → R s l s') :
    ∀ {ls : List L} {s : S} {tr : List (S × L × S)} {s' : S},
      exec step s ls = some (tr, s') → Run R s tr s' ∧ tr.map (·.2.1) = ls
  | [], s, tr, s', h => by
    simp only [exec, Option.some.injEq, Prod.mk.injEq] at h
    obtain ⟨rfl, rfl⟩ := h
    exact ⟨.nil, rfl⟩
  | l :: ls, s, tr, s', h => by
    simp only [exec] at h
    split at h
    · exact absurd h (by simp)
    · next s₁ hs =>
      obtain ⟨⟨tr', s''⟩, hrest, heq⟩ := Option.map_eq_some_iff.mp h
      rw [Prod.mk.injEq] at heq
      obtain ⟨rfl, rfl⟩ := heq
      obtain ⟨hrun, hlabels⟩ := run_of_exec hR hrest
      exact ⟨Run.cons (hR hs) hrun, congrArg (l :: ·) hlabels⟩

/-- A replay gives a run whose states look as computed. -/
theorem exists_run (step : S → L → Option S) {R : S → L → S → Prop}
    (hR : ∀ {s l s'}, step s l = some s' → R s l s') (s : S) (ls : List L) {V : Type}
    (view : List (S × L × S) × S → V) {v : V} (h : (exec step s ls).map view = some v) :
    ∃ tr s', Run R s tr s' ∧ tr.map (·.2.1) = ls ∧ view (tr, s') = v := by
  obtain ⟨⟨tr, s'⟩, hexec, hview⟩ := Option.map_eq_some_iff.mp h
  obtain ⟨hrun, hlabels⟩ := run_of_exec hR hexec
  exact ⟨tr, s', hrun, hlabels, hview⟩

end FlavoEngine.Lib

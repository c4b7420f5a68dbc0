/-!
# Stages with an early exit

A stage is a function on some data that may fail. It gives a result of type `R`, the data as it left
them, and the calls it made, or it does not return at all. Stages are run one after another until
the result of one asks for an early exit.

`Triple ok pre s good post` is a rule of pre- and postconditions: run on data with `pre`, a stage
that returns is successful exactly when `good` holds, and it has then established `post`.

Results:
1. `Triple.andThen`: stages compose; the whole succeeds exactly when both are good.
2. `Triple.writes`: a function with an output parameter as a stage of the data it writes to.
3. `slotLoop_spec`: a loop over an array that creates one element after another.
4. `tried_of_first`: what a search that ends at its first success has tried.
-/

namespace FlavoEngine.Lib

variable {X D R C A : Type}

/-- `X` says how a stage fails to return. -/
abbrev Stage (X D R C : Type) := D → Except X (R × D × List C)

namespace Stage

/-- Run `s`; unless its result asks for an early exit, run `t` on the data it left. -/
def andThen (s : Stage X D R C) (exit : R → Option R) (t : Stage X D R C) : Stage X D R C :=
  fun d =>
    match s d with
    | .error x => .error x
    | .ok (r, d', calls) =>
      match exit r with
      | some r' => .ok (r', d', calls)
      | none =>
        match t d' with
        | .error x => .error x
        | .ok (r'', d'', calls') => .ok (r'', d'', calls ++ calls')

/-- A function of the data with an output parameter that is part of them. -/
def writes (f : D → Except X (R × A × List C)) (set : D → A → D) : Stage X D R C :=
  fun d =>
    match f d with
    | .error x => .error x
    | .ok (r, a, calls) => .ok (r, set d a, calls)

theorem writes_run {f : D → Except X (R × A × List C)} {set : D → A → D} {d : D} {r : R} {a : A}
    {calls : List C} (h : f d = .ok (r, a, calls)) :
    writes f set d = .ok (r, set d a, calls) := by
  unfold writes
  rw [h]

/-- The stage that does nothing but return `r`. -/
def done (r : R) : Stage X D R C :=
  fun d => .ok (r, d, [])

end Stage

/-- The early exit tells success from failure, and leaves with a failure. -/
structure Exits (ok : R → Prop) (exit : R → Option R) : Prop where
  none_iff : ∀ r, exit r = none ↔ ok r
  some_not : ∀ r r', exit r = some r' → ¬ ok r'

/-- Partial correctness of a fallible stage. -/
def Triple (ok : R → Prop) (pre : D → Prop) (s : Stage X D R C) (good : Prop) (post : D → Prop) :
    Prop :=
  ∀ d r d' calls, pre d → s d = .ok (r, d', calls) → (ok r ↔ good) ∧ (ok r → post d')

namespace Triple

variable {ok : R → Prop} {pre mid post : D → Prop} {s t : Stage X D R C} {good good' : Prop}

theorem andThen {exit : R → Option R} (hexit : Exits ok exit) (hs : Triple ok pre s good mid)
    (ht : Triple ok mid t good' post) :
    Triple ok pre (s.andThen exit t) (good ∧ good') post := by
  intro d r d' calls hpre hrun
  simp only [Stage.andThen] at hrun
  split at hrun
  · cases hrun
  · next r₁ d₁ calls₁ hfirst =>
    obtain ⟨hgood, hmid⟩ := hs d r₁ d₁ calls₁ hpre hfirst
    split at hrun
    · -- the early exit: the first stage has failed
      next r₂ hsome =>
      cases hrun
      have hfail : ¬ ok r₁ := by
        rw [← hexit.none_iff, hsome]
        exact fun h => nomatch h
      have hout : ¬ ok r := hexit.some_not r₁ r hsome
      exact ⟨⟨fun h => absurd h hout, fun h => absurd (hgood.mpr h.1) hfail⟩,
        fun h => absurd h hout⟩
    · next hnone =>
      have hok : ok r₁ := (hexit.none_iff r₁).mp hnone
      split at hrun
      · cases hrun
      · next r₂ d₂ calls₂ hsecond =>
        cases hrun
        obtain ⟨hgood', hpost⟩ := ht d₁ r d' calls₂ (hmid hok) hsecond
        refine ⟨⟨fun h => ⟨hgood.mp hok, hgood'.mp h⟩, fun h => hgood'.mpr h.2⟩, hpost⟩

theorem done {r : R} (hok : ok r) : Triple (X := X) (C := C) ok pre (Stage.done r) True pre := by
  intro d r' d' calls hpre hrun
  cases hrun
  exact ⟨⟨fun _ => trivial, fun _ => hok⟩, fun _ => hpre⟩

theorem writes {f : D → Except X (R × A × List C)} {set : D → A → D}
    (h : ∀ d r a calls, pre d → f d = .ok (r, a, calls) →
      (ok r ↔ good) ∧ (ok r → post (set d a))) :
    Triple ok pre (Stage.writes f set) good post := by
  intro d r d' calls hpre hrun
  simp only [Stage.writes] at hrun
  split at hrun
  · cases hrun
  · next r₁ a calls₁ hf =>
    cases hrun
    exact h d r a calls hpre hf

theorem congr (h : Triple ok pre s good post) (heq : good ↔ good') :
    Triple ok pre s good' post :=
  propext heq ▸ h

end Triple

/-! ## A loop over an array -/

section SlotLoop

variable {V : Type}

/-- For each slot of an array from the index `i` on, `body` gives a result, the new content of the
slot, the next value of a running variable, and its calls; the loop ends early at the first result
that is not successful. -/
def slotLoop (isOk : R → Bool) (success : R) (body : Nat → V → R × A × V × List C) :
    Nat → V → List A → R × List A × List C
  | _, _, [] => (success, [], [])
  | i, v, _ :: slots =>
    match body i v with
    | (r, a, v', calls) =>
      if isOk r then
        match slotLoop isOk success body (i + 1) v' slots with
        | (r', slots', calls') => (r', a :: slots', calls ++ calls')
      else (r, a :: slots, calls)

/-- The loop succeeds exactly when the body does for every index, and has then put something with
`P` in every slot. -/
theorem slotLoop_spec {isOk : R → Bool} {success : R} {body : Nat → V → R × A × V × List C}
    {good : Nat → Prop} {P : A → Prop} (hsuccess : isOk success = true)
    (hgood : ∀ i v, isOk (body i v).1 = true ↔ good i)
    (hpost : ∀ i v, isOk (body i v).1 = true → P (body i v).2.1) (slots : List A) (i : Nat)
    (v : V) :
    (isOk (slotLoop isOk success body i v slots).1 = true ↔
        ∀ k, i ≤ k → k < i + slots.length → good k) ∧
      (isOk (slotLoop isOk success body i v slots).1 = true →
        ∀ a ∈ (slotLoop isOk success body i v slots).2.1, P a) ∧
      (slotLoop isOk success body i v slots).2.1.length = slots.length := by
  induction slots generalizing i v with
  | nil =>
    refine ⟨⟨fun _ k hle hlt => ?_, fun _ => hsuccess⟩, fun _ a ha => ?_, rfl⟩
    · exact absurd hlt (Nat.not_lt.mpr hle)
    · exact absurd ha List.not_mem_nil
  | cons slot slots ih =>
    obtain ⟨ihgood, ihpost, ihlen⟩ := ih (i + 1) (body i v).2.2.1
    have hshift : i + 1 + slots.length = i + (slot :: slots).length :=
      Nat.succ_add_eq_add_succ i slots.length
    have hfirst : i < i + (slot :: slots).length := Nat.lt_add_of_pos_right (Nat.succ_pos _)
    simp only [slotLoop]
    split
    · next hok =>
      refine ⟨?_, ?_, congrArg (· + 1) ihlen⟩
      · rw [ihgood]
        constructor
        · intro hrest k hle hlt
          rcases Nat.eq_or_lt_of_le hle with rfl | hnext
          · exact (hgood i v).mp hok
          · exact hrest k hnext (hshift ▸ hlt)
        · intro hall k hle hlt
          exact hall k (Nat.le_of_succ_le hle) (hshift ▸ hlt)
      · intro hrest a ha
        rcases List.mem_cons.mp ha with rfl | ha
        · exact hpost i v hok
        · exact ihpost hrest a ha
    · next hfail =>
      refine ⟨⟨fun h => absurd h hfail, fun hall => ?_⟩, fun h => absurd h hfail, rfl⟩
      exact (hgood i v).mpr (hall i (Nat.le_refl i) hfirst)

end SlotLoop

/-! ## A search -/

section Search

variable (p : A → Bool)

/-- What a search for an element with `p` tries: the elements up to the first one that has it. -/
def tried : List A → List A
  | [] => []
  | a :: l => if p a then [a] else a :: tried l

variable {p}

theorem tried_of_none {l : List A} (h : ∀ a ∈ l, ¬ p a = true) : tried p l = l := by
  induction l with
  | nil => rfl
  | cons a l ih =>
    rw [tried, if_neg (h a List.mem_cons_self), ih fun b hb => h b (List.mem_cons_of_mem a hb)]

theorem tried_of_first {pre post : List A} {a : A} (hpre : ∀ b ∈ pre, ¬ p b = true)
    (ha : p a = true) : tried p (pre ++ a :: post) = pre ++ [a] := by
  induction pre with
  | nil => exact if_pos ha
  | cons b pre ih =>
    rw [List.cons_append, tried, if_neg (hpre b List.mem_cons_self),
      ih fun c hc => hpre c (List.mem_cons_of_mem b hc)]
    rfl

/-- Candidates in two lists: the second is searched when the first has no success. -/
theorem tried_append (l l' : List A) :
    tried p (l ++ l') = if (l.find? p).isSome then tried p l else l ++ tried p l' := by
  induction l with
  | nil => rfl
  | cons a l ih =>
    by_cases ha : p a = true
    · simp [tried, ha]
    · simp only [List.cons_append, tried, if_neg ha, List.find?_cons_of_neg ha, ih]
      split <;> rfl

end Search

end FlavoEngine.Lib

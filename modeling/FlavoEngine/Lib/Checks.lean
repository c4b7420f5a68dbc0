import FlavoEngine.Lib.Stages
import Mathlib.Data.List.Basic

/-!
# The first check that fails

A stage makes checks in a fixed order and ends at the first that fails. `Checked` says of a stage,
for a list of checks, what it leaves when all of them pass and what it leaves at each possible first
failure; the assertions speak of the data and of all calls so far.

Results:
1. `Checked.andThen`: stages in sequence make the checks of one after those of the other.
2. `Checked.iff_firstFailing`: the rule read by the first failing check.
3. `slotLoop_done`, `slotLoop_first`: what a loop over an array leaves, and where it ends.
-/

namespace FlavoEngine.Lib

variable {X D R C A K K' : Type}

/-- `c` is the first of the checks that does not pass. -/
inductive FirstFailing (passes : K → Prop) : List K → K → Prop
  | here {c : K} {cs : List K} : ¬ passes c → FirstFailing passes (c :: cs) c
  | there {b c : K} {cs : List K} : passes b → FirstFailing passes cs c →
      FirstFailing passes (b :: cs) c

namespace FirstFailing

variable {passes : K → Prop}

theorem mem {cs : List K} {c : K} (h : FirstFailing passes cs c) : c ∈ cs ∧ ¬ passes c := by
  induction h with
  | here hc => exact ⟨List.mem_cons_self, hc⟩
  | there _ _ ih => exact ⟨List.mem_cons_of_mem _ ih.1, ih.2⟩

theorem unique {cs : List K} {c c' : K} (h : FirstFailing passes cs c)
    (h' : FirstFailing passes cs c') : c = c' := by
  induction h with
  | here hc =>
    cases h' with
    | here _ => rfl
    | there hb _ => exact absurd hb hc
  | there hb _ ih =>
    cases h' with
    | here hc => exact absurd hb hc
    | there _ hrest => exact ih hrest

/-- Either all checks pass or one is the first that does not. -/
theorem all_or_first (passes : K → Prop) (cs : List K) :
    (∀ c ∈ cs, passes c) ∨ ∃ c, FirstFailing passes cs c := by
  induction cs with
  | nil => exact .inl fun _ hc => absurd hc List.not_mem_nil
  | cons b cs ih =>
    by_cases hb : passes b
    · rcases ih with hall | ⟨c, hc⟩
      · exact .inl (List.forall_mem_cons.mpr ⟨hb, hall⟩)
      · exact .inr ⟨c, .there hb hc⟩
    · exact .inr ⟨b, .here hb⟩

theorem of_map {f : K' → K} {ks : List K'} {c : K} (h : FirstFailing passes (ks.map f) c) :
    ∃ k, c = f k ∧ FirstFailing (fun k => passes (f k)) ks k := by
  induction ks with
  | nil => cases h
  | cons b ks ih =>
    cases h with
    | here hc => exact ⟨b, rfl, .here hc⟩
    | there hb hrest =>
      obtain ⟨k, rfl, hk⟩ := ih hrest
      exact ⟨k, rfl, .there hb hk⟩

end FirstFailing

/-- From data and calls with `pre` the stage returns, with a result, data and calls that have
`post`. -/
def Yields (pre : D → List C → Prop) (s : Stage X D R C) (post : R → D → List C → Prop) : Prop :=
  ∀ d before, pre d before →
    ∃ r d' calls, s d = .ok (r, d', calls) ∧ post r d' (before ++ calls)

/-- A stage that makes the checks: it succeeds with `post` when all pass, and fails with `stop c`
when `c` is the first that does not. -/
def Checked (ok : R → Prop) (passes : K → Prop) (stop : K → R → D → List C → Prop)
    (pre : D → List C → Prop) (s : Stage X D R C) (post : D → List C → Prop) : List K → Prop
  | [] => Yields pre s fun r d calls => ok r ∧ post d calls
  | c :: cs =>
    (passes c → Checked ok passes stop pre s post cs) ∧
      (¬ passes c → Yields pre s fun r d calls => ¬ ok r ∧ stop c r d calls)

namespace Yields

variable {pre mid : D → List C → Prop} {s t : Stage X D R C} {exit : R → Option R} {ok : R → Prop}

/-- The first stage has succeeded, so the second is run. -/
theorem andThen {post : R → D → List C → Prop} (hexit : Exits ok exit)
    (hs : Yields pre s fun r d calls => ok r ∧ mid d calls) (ht : Yields mid t post) :
    Yields pre (s.andThen exit t) post := by
  intro d before hpre
  obtain ⟨r, d₁, calls₁, hrun₁, hok, hmid⟩ := hs d before hpre
  obtain ⟨r₂, d₂, calls₂, hrun₂, hpost⟩ := ht d₁ (before ++ calls₁) hmid
  refine ⟨r₂, d₂, calls₁ ++ calls₂, ?_, by rw [← List.append_assoc]; exact hpost⟩
  simp only [Stage.andThen, hrun₁, (hexit.none_iff r).mpr hok, hrun₂]

/-- The first stage has failed, so the early exit is taken. -/
theorem early {stop stop' : R → D → List C → Prop} (hexit : Exits ok exit)
    (hs : Yields pre s fun r d calls => ¬ ok r ∧ stop r d calls)
    (hstop : ∀ r r' d calls, exit r = some r' → stop r d calls → stop' r' d calls) :
    Yields pre (s.andThen exit t) fun r d calls => ¬ ok r ∧ stop' r d calls := by
  intro d before hpre
  obtain ⟨r, d₁, calls₁, hrun₁, hfail, hstopped⟩ := hs d before hpre
  cases hr : exit r with
  | none => exact absurd ((hexit.none_iff r).mp hr) hfail
  | some r' =>
    refine ⟨r', d₁, calls₁, ?_, hexit.some_not r r' hr, hstop r r' d₁ _ hr hstopped⟩
    simp only [Stage.andThen, hrun₁, hr]

end Yields

namespace Checked

variable {ok : R → Prop} {passes : K → Prop} {stop stop' : K → R → D → List C → Prop}
variable {pre mid post : D → List C → Prop} {s t : Stage X D R C} {exit : R → Option R}
variable {cs cs' : List K}

/-- A stage is checked when it leaves what is asked at each first failure, and without one. -/
theorem iff_firstFailing :
    Checked ok passes stop pre s post cs ↔
      ((∀ c ∈ cs, passes c) → Yields pre s fun r d calls => ok r ∧ post d calls) ∧
        ∀ c, FirstFailing passes cs c →
          Yields pre s fun r d calls => ¬ ok r ∧ stop c r d calls := by
  induction cs with
  | nil =>
    constructor
    · exact fun h => ⟨fun _ => h, fun c hc => nomatch hc⟩
    · exact fun h => h.1 fun c hc => absurd hc List.not_mem_nil
  | cons b cs ih =>
    show (_ → _) ∧ (_ → _) ↔ _
    rw [ih, List.forall_mem_cons]
    constructor
    · rintro ⟨hpass, hfail⟩
      refine ⟨fun hall => (hpass hall.1).1 hall.2, fun c hc => ?_⟩
      cases hc with
      | here hb => exact hfail hb
      | there hb hrest => exact (hpass hb).2 c hrest
    · rintro ⟨hdone, hfirst⟩
      exact ⟨fun hb => ⟨fun hall => hdone ⟨hb, hall⟩, fun c hc => hfirst c (.there hb hc)⟩,
        fun hb => hfirst b (.here hb)⟩

/-- The rule for a stage of which a run is known. -/
theorem of_run (h : ∀ d before, pre d before → ∃ r d' calls, s d = .ok (r, d', calls) ∧
      ((∀ c ∈ cs, passes c) → ok r ∧ post d' (before ++ calls)) ∧
      ∀ c, FirstFailing passes cs c → ¬ ok r ∧ stop c r d' (before ++ calls)) :
    Checked ok passes stop pre s post cs := by
  refine iff_firstFailing.mpr ⟨fun hall d before hpre => ?_, fun c hc d before hpre => ?_⟩
  · obtain ⟨r, d', calls, hrun, hdone, -⟩ := h d before hpre
    exact ⟨r, d', calls, hrun, hdone hall⟩
  · obtain ⟨r, d', calls, hrun, -, hfirst⟩ := h d before hpre
    exact ⟨r, d', calls, hrun, hfirst c hc⟩

/-- What a rule of partial correctness says of a success holds after one. -/
theorem and_triple {pre' post' : D → Prop} {good : Prop} (h : Checked ok passes stop pre s post cs)
    (hpre : ∀ d calls, pre d calls → pre' d) (htriple : Triple ok pre' s good post') :
    Checked ok passes stop pre s (fun d calls => post d calls ∧ post' d) cs := by
  refine of_run fun d before hd => ?_
  obtain ⟨hdone, hfirst⟩ := iff_firstFailing.mp h
  rcases FirstFailing.all_or_first passes cs with hall | ⟨c, hc⟩
  · obtain ⟨r, d', calls, hrun, hok, hpost⟩ := hdone hall d before hd
    have hpost' := (htriple d r d' calls (hpre d before hd) hrun).2 hok
    exact ⟨r, d', calls, hrun, fun _ => ⟨hok, hpost, hpost'⟩,
      fun c hc => absurd (hall c hc.mem.1) hc.mem.2⟩
  · obtain ⟨r, d', calls, hrun, hstop⟩ := hfirst c hc d before hd
    refine ⟨r, d', calls, hrun, fun hall => absurd (hall c hc.mem.1) hc.mem.2, fun c' hc' => ?_⟩
    rw [hc'.unique hc]
    exact hstop

/-- A stage after one that has succeeded. -/
theorem after (hexit : Exits ok exit) (hs : Yields pre s fun r d calls => ok r ∧ mid d calls)
    (ht : Checked ok passes stop mid t post cs) :
    Checked ok passes stop pre (s.andThen exit t) post cs := by
  induction cs with
  | nil => exact Yields.andThen hexit hs ht
  | cons c cs ih => exact ⟨fun hc => ih (ht.1 hc), fun hc => Yields.andThen hexit hs (ht.2 hc)⟩

/-- Stages in sequence make the checks of the first and then those of the second. -/
theorem andThen (hexit : Exits ok exit) (hs : Checked ok passes stop pre s mid cs)
    (hstop : ∀ c r r' d calls, exit r = some r' → stop c r d calls → stop' c r' d calls)
    (ht : Checked ok passes stop' mid t post cs') :
    Checked ok passes stop' pre (s.andThen exit t) post (cs ++ cs') := by
  induction cs with
  | nil => exact after hexit hs ht
  | cons c cs ih => exact ⟨fun hc => ih (hs.1 hc), fun hc => Yields.early hexit (hs.2 hc) (hstop c)⟩

/-- The stage that does nothing makes no checks. -/
theorem done {r : R} (hok : ok r) :
    Checked (X := X) ok passes stop pre (Stage.done r) pre [] := by
  intro d before hpre
  exact ⟨r, d, [], rfl, hok, by rw [List.append_nil]; exact hpre⟩

end Checked

/-! ## Loops -/

section SlotLoop

variable {V : Type} {isOk : R → Bool} {success : R} {body : Nat → V → R × A × V × List C}

/-- A loop whose body succeeds for every index fills in every slot; `v` is the running variable at
each index, `a` what the body puts in the slot, and `calls` its calls. -/
theorem slotLoop_done {v : Nat → V} {a : Nat → A} {calls : Nat → List C}
    (hsuccess : isOk success = true) (slots : List A) {i : Nat}
    (hround : ∀ k, i ≤ k → k < i + slots.length →
      body k (v k) = (success, a k, v (k + 1), calls k)) :
    slotLoop isOk success body i (v i) slots =
      (success, (List.range' i slots.length).map a, (List.range' i slots.length).flatMap calls) := by
  induction slots generalizing i with
  | nil => rfl
  | cons slot slots ih =>
    have hshift : i + 1 + slots.length = i + (slot :: slots).length := by
      rw [List.length_cons, Nat.add_assoc, Nat.add_comm 1]
    have hfirst := hround i (Nat.le_refl i) (Nat.lt_add_of_pos_right (Nat.zero_lt_succ _))
    have hrest := ih (i := i + 1) fun k hle hlt => hround k (Nat.le_of_succ_le hle) (hshift ▸ hlt)
    simp only [slotLoop, hfirst, hsuccess, if_true, hrest]
    rfl

/-- A loop that does not get through ends with the result of its body at the first index that is not
good. -/
theorem slotLoop_first {good : Nat → Prop} (hgood : ∀ k v, isOk (body k v).1 = true ↔ good k)
    (slots : List A) {i j : Nat} (v : V)
    (h : FirstFailing good (List.range' i slots.length) j) :
    ∃ v', (slotLoop isOk success body i v slots).1 = (body j v').1 := by
  induction slots generalizing i v with
  | nil => cases h
  | cons slot slots ih =>
    rw [List.length_cons, List.range'_succ] at h
    cases h with
    | here hi =>
      have hfail : ¬ isOk (body j v).1 = true := fun hok => hi ((hgood j v).mp hok)
      simp only [slotLoop, if_neg hfail]
      exact ⟨v, rfl⟩
    | there hi hrest =>
      obtain ⟨v', hv'⟩ := ih (body i v).2.2.1 hrest
      simp only [slotLoop, if_pos ((hgood i v).mpr hi)]
      exact ⟨v', hv'⟩

/-- The calls of a loop are calls of its body. -/
theorem slotLoop_calls (slots : List A) (i : Nat) (v : V) :
    ∀ call ∈ (slotLoop isOk success body i v slots).2.2, ∃ k v', call ∈ (body k v').2.2.2 := by
  induction slots generalizing i v with
  | nil => exact fun call hcall => absurd hcall List.not_mem_nil
  | cons slot slots ih =>
    intro call hcall
    simp only [slotLoop] at hcall
    split at hcall
    · rcases List.mem_append.mp hcall with hfirst | hrest
      · exact ⟨i, v, hfirst⟩
      · exact ih (i + 1) _ call hrest
    · exact ⟨i, v, hcall⟩

end SlotLoop

end FlavoEngine.Lib

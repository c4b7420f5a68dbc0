import Mathlib.Data.List.TakeWhile

/-!
# Views and C strings

A view is a stretch of a buffer. Read as a C string it starts where the view starts and ends before
the first terminator of the buffer, wherever the view ends.

Results:
1. `View.cString_eq_units_iff`: the C string is the view exactly when a terminator follows the view
   and none is in it.
2. `View.terminated_ofString`: a string owns its buffer and ends where the C string does when no
   terminator is in it.
3. `View.terminated_ofPointer`: a view that is made from a C string ends where the C string does.
-/

namespace FlavoEngine.Lib

variable {α : Type}

/-- `length` units of a buffer, from `start` on. -/
structure View (α : Type) where
  buffer : List α
  start : Nat
  length : Nat
  inside : start + length ≤ buffer.length
deriving DecidableEq

namespace View

/-- The units of the view. -/
def units (v : View α) : List α :=
  (v.buffer.drop v.start).take v.length

/-- What lies behind the view in its buffer. -/
def behind (v : View α) : List α :=
  (v.buffer.drop v.start).drop v.length

/-- The buffer of a string: its units and a terminator. -/
def ofString (nul : α) (s : List α) : View α where
  buffer := s ++ [nul]
  start := 0
  length := s.length
  inside := by simp

variable [DecidableEq α] (nul : α)

/-- The C string that starts where the view does; `none` when no terminator follows in the buffer,
so that reading it leaves the buffer. -/
def cString (v : View α) : Option (List α) :=
  if nul ∈ v.buffer.drop v.start then some ((v.buffer.drop v.start).takeWhile (· != nul)) else none

/-- The view ends where its C string ends. -/
def Terminated (v : View α) : Prop :=
  nul ∉ v.units ∧ v.buffer[v.start + v.length]? = some nul

instance (v : View α) : Decidable (v.Terminated nul) :=
  inferInstanceAs (Decidable (_ ∧ _))

variable {nul} {v : View α}

omit [DecidableEq α] in
theorem units_append_behind (v : View α) : v.units ++ v.behind = v.buffer.drop v.start :=
  List.take_append_drop ..

omit [DecidableEq α] in
theorem behind_head (v : View α) : v.behind[0]? = v.buffer[v.start + v.length]? := by
  unfold behind
  rw [List.getElem?_drop, List.getElem?_drop, Nat.add_zero]

/-- What comes before the first terminator has none in it. -/
theorem not_mem_takeWhile (us : List α) : nul ∉ us.takeWhile (· != nul) := by
  intro hmem
  have hne := List.mem_takeWhile_imp (p := fun a => a != nul) hmem
  exact absurd rfl (bne_iff_ne.mp hne)

theorem cString_of_terminated (h : v.Terminated nul) : v.cString nul = some v.units := by
  obtain ⟨hunits, hnul⟩ := h
  rw [← behind_head] at hnul
  cases hbehind : v.behind with
  | nil =>
    rw [hbehind] at hnul
    cases hnul
  | cons x rest =>
    rw [hbehind] at hnul
    obtain rfl : x = nul := Option.some.inj hnul
    have hall : ∀ a ∈ v.units, (a != x) = true := fun a ha =>
      bne_iff_ne.mpr fun heq => hunits (heq ▸ ha)
    unfold cString
    rw [← units_append_behind, hbehind, if_pos (by simp), List.takeWhile_append_of_pos hall]
    simp

theorem terminated_of_cString (h : v.cString nul = some v.units) : v.Terminated nul := by
  unfold cString at h
  split at h
  · next hmem =>
    rw [Option.some.injEq] at h
    have hunits : nul ∉ v.units := h ▸ not_mem_takeWhile (v.buffer.drop v.start)
    have hall : ∀ a ∈ v.units, (a != nul) = true := fun a ha =>
      bne_iff_ne.mpr fun heq => hunits (heq ▸ ha)
    refine ⟨hunits, ?_⟩
    rw [← units_append_behind] at h hmem
    rw [List.takeWhile_append_of_pos hall, List.append_right_eq_self] at h
    rw [← behind_head]
    cases hbehind : v.behind with
    | nil =>
      rw [hbehind, List.append_nil] at hmem
      exact absurd hmem hunits
    | cons x rest =>
      rw [hbehind] at h
      have hx : x = nul := by
        by_contra hne
        simp [hne] at h
      rw [hx]
      rfl
  · cases h

/-- The C string is the view exactly when the view is terminated. -/
theorem cString_eq_units_iff : v.cString nul = some v.units ↔ v.Terminated nul :=
  ⟨terminated_of_cString, cString_of_terminated⟩

omit [DecidableEq α] in
@[simp] theorem units_ofString (s : List α) : (ofString nul s).units = s := by
  simp [ofString, units]

omit [DecidableEq α] in
theorem terminated_ofString {s : List α} : (ofString nul s).Terminated nul ↔ nul ∉ s := by
  unfold Terminated
  rw [units_ofString]
  simp [ofString]

/-- The view of the C string at the start of a buffer. -/
def ofPointer (nul : α) (buffer : List α) : View α where
  buffer := buffer
  start := 0
  length := (buffer.takeWhile (· != nul)).length
  inside := by
    rw [Nat.zero_add]
    exact (List.takeWhile_prefix _).length_le

theorem units_ofPointer (buffer : List α) :
    (ofPointer nul buffer).units = buffer.takeWhile (· != nul) :=
  (List.prefix_iff_eq_take.mp (List.takeWhile_prefix _)).symm

theorem terminated_ofPointer {buffer : List α} (h : nul ∈ buffer) :
    (ofPointer nul buffer).Terminated nul := by
  apply terminated_of_cString
  rw [units_ofPointer]
  exact if_pos h

end View

end FlavoEngine.Lib

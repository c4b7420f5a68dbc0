/-!
# Texts

What the engine uses of `std::string`, `std::string_view` and `std::format`
(`kernel/source/core/ftl/string.h`, `format.h`). A `Char` stands for a `char`.

Results:
1. `cstr_eq_self`: a text without the terminator survives `data()`.
2. `not_mem_afterLast`: what follows the last separator has no separator.
-/

namespace FlavoEngine.Core

/-- A `string` or `string_view`. -/
abbrev Text := List Char

namespace Text

/-- A `string` from `s.data()`: it ends at the first NUL. -/
def cstr (s : Text) : Text :=
  s.takeWhile fun c => c != '\x00'

/-- `s.rfind(c)`; `none` for `npos`. -/
def rfind : Text → Char → Option Nat
  | [], _ => none
  | d :: s, c =>
    match rfind s c with
    | some k => some (k + 1)
    | none => if d = c then some 0 else none

/-- `s.substr(k)`. -/
def substr (s : Text) (k : Nat) : Text :=
  s.drop k

/-- An unsigned integer in decimal, as `format` writes it. -/
def decimal (n : Nat) : Text :=
  Nat.toDigits 10 n

/-- A signed integer in decimal. -/
def decimalInt : Int → Text
  | .ofNat n => decimal n
  | .negSucc n => '-' :: decimal (n + 1)

/-- `format(fmt, args...)` for replacement fields without options. The compiler refuses a format
with a lone brace or with more fields than arguments. -/
def format : Text → List Text → Text
  | [], _ => []
  | '\x7b' :: '\x7d' :: fmt, arg :: args => arg ++ format fmt args
  | '\x7b' :: '\x7b' :: fmt, args => '\x7b' :: format fmt args
  | '\x7d' :: '\x7d' :: fmt, args => '\x7d' :: format fmt args
  | c :: fmt, args => c :: format fmt args

end Text

open Text

namespace TextLemmas

theorem cstr_eq_self {s : Text} (h : '\x00' ∉ s) : s.cstr = s := by
  induction s with
  | nil => rfl
  | cons c s ih =>
    obtain ⟨hc, hs⟩ := List.ne_and_not_mem_of_not_mem_cons h
    show (c :: s).takeWhile _ = c :: s
    rw [List.takeWhile_cons_of_pos (by simpa using hc.symm)]
    exact congrArg (c :: ·) (ih hs)

theorem rfind_eq_none {s : Text} {c : Char} (h : rfind s c = none) : c ∉ s := by
  induction s with
  | nil => exact List.not_mem_nil
  | cons d s ih =>
    unfold rfind at h
    split at h
    · cases h
    · next hs =>
      split at h
      · cases h
      · next hne => exact List.not_mem_cons_of_ne_of_not_mem (Ne.symm hne) (ih hs)

theorem not_mem_afterLast {s : Text} {c : Char} {k : Nat} (h : rfind s c = some k) :
    c ∉ s.substr (k + 1) := by
  induction s generalizing k with
  | nil => cases h
  | cons d s ih =>
    unfold rfind at h
    split at h
    · next j hs =>
      cases h
      exact ih hs
    · next hs =>
      split at h
      · cases h
        exact rfind_eq_none hs
      · cases h

/-- The text around the character that `rfind` finds. -/
theorem rfind_split {s : Text} {c : Char} {k : Nat} (h : rfind s c = some k) :
    ∃ pre, s = pre ++ c :: s.substr (k + 1) := by
  induction s generalizing k with
  | nil => cases h
  | cons d s ih =>
    unfold rfind at h
    split at h
    · next j hs =>
      cases h
      obtain ⟨pre, hpre⟩ := ih hs
      exact ⟨d :: pre, congrArg (d :: ·) hpre⟩
    · split at h
      · next heq =>
        cases h
        exact ⟨[], by rw [heq]; rfl⟩
      · cases h

theorem not_mem_substr {s : Text} {c : Char} (h : c ∉ s) (k : Nat) : c ∉ s.substr k :=
  fun hc => h (List.mem_of_mem_drop hc)

/-- Digits are neither the terminator nor a line end. -/
theorem not_mem_decimal {c : Char} (hc : c.isDigit = false) (n : Nat) : c ∉ decimal n := by
  intro hmem
  have hdigit : c.isDigit = true := Nat.isDigit_of_mem_toDigits (by decide) (by decide) hmem
  rw [hc] at hdigit
  cases hdigit

theorem not_mem_decimalInt {c : Char} (hc : c.isDigit = false) (hminus : c ≠ '-') (i : Int) :
    c ∉ decimalInt i := by
  cases i with
  | ofNat n => exact not_mem_decimal hc n
  | negSucc n =>
    intro hmem
    rcases List.mem_cons.mp hmem with heq | hdigits
    · exact hminus heq
    · exact not_mem_decimal hc (n + 1) hdigits

theorem not_mem_tail {c d : Char} {s : Text} (h : c ∉ d :: s) : c ∉ s :=
  fun hmem => h (List.mem_cons_of_mem d hmem)

/-- A formatted text has only the characters of its format and its arguments. -/
theorem not_mem_format {c : Char} {fmt : Text} {args : List Text} (hfmt : c ∉ fmt)
    (hargs : ∀ arg ∈ args, c ∉ arg) : c ∉ format fmt args := by
  induction fmt, args using format.induct with
  | case1 args => exact List.not_mem_nil
  | case2 fmt arg args ih =>
    rw [format, List.mem_append, not_or]
    exact ⟨hargs arg List.mem_cons_self, ih (not_mem_tail (not_mem_tail hfmt))
      fun a ha => hargs a (List.mem_cons_of_mem arg ha)⟩
  | case3 args fmt ih =>
    rw [format, List.mem_cons, not_or]
    exact ⟨fun heq => hfmt (heq ▸ List.mem_cons_self), ih (not_mem_tail (not_mem_tail hfmt)) hargs⟩
  | case4 args fmt ih =>
    rw [format, List.mem_cons, not_or]
    exact ⟨fun heq => hfmt (heq ▸ List.mem_cons_self), ih (not_mem_tail (not_mem_tail hfmt)) hargs⟩
  | case5 d fmt args hfield hopen hclose ih =>
    rw [format.eq_5 args d fmt hopen hclose hfield, List.mem_cons, not_or]
    exact ⟨fun heq => hfmt (heq ▸ List.mem_cons_self), ih (not_mem_tail hfmt) hargs⟩

end TextLemmas

end FlavoEngine.Core

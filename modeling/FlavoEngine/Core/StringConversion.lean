import FlavoEngine.Lib.Unicode

/-!
# Conversion between UTF-16 and UTF-8

`utf16_to_utf8` and `utf8_to_utf16` (`kernel/source/core/ftl/string.cpp`) pass `s.data()` to the
pointer overloads of `std::wstring_convert`, which take the units up to the first zero unit. A
`wchar_t` has 16 bits; `none` is the `std::range_error` of units that are not well formed, and a
C string that does not end in its buffer. That `std::wstring_convert` throws for exactly the units
that are not well formed is assumed of it.

Results:
1. `conversion_iff`: a well-formed view is converted to the encoding of its units, and back to
   itself, exactly when it ends where its C string does.
2. `convertsWide_description`: the one caller passes such a view.
-/

namespace FlavoEngine.Core

open FlavoEngine.Lib

/-- `utf16_to_utf8`: `conv.to_bytes(s.data())`. -/
def utf16ToUtf8 (s : View UInt16) : Option (List UInt8) :=
  utf16.convertView utf8 s

/-- `utf8_to_utf16`: `conv.from_bytes(s.data())`. -/
def utf8ToUtf16 (s : View UInt8) : Option (List UInt16) :=
  utf8.convertView utf16 s

/-- The view is converted to the UTF-8 of exactly its units, and its UTF-8 back to it. -/
structure ConvertsWide (s : View UInt16) : Prop where
  encodes : ∀ cs, utf16Encode cs = s.units → utf16ToUtf8 s = some (utf8Encode cs)
  back : ∃ bytes, utf16ToUtf8 s = some bytes ∧ utf8ToUtf16 (.ofString 0 bytes) = some s.units

/-- The view is converted to the UTF-16 of exactly its bytes, and its UTF-16 back to it. -/
structure ConvertsNarrow (u : View UInt8) : Prop where
  encodes : ∀ cs, utf8Encode cs = u.units → utf8ToUtf16 u = some (utf16Encode cs)
  back : ∃ units, utf8ToUtf16 u = some units ∧ utf16ToUtf8 (.ofString 0 units) = some u.units

theorem convertsWide_iff {s : View UInt16} (hs : utf16.WellFormed s.units) :
    ConvertsWide s ↔ s.Terminated 0 := by
  have hback : (∃ bytes, utf16ToUtf8 s = some bytes ∧
      utf8ToUtf16 (.ofString 0 bytes) = some s.units) ↔ s.Terminated 0 :=
    Encoding.roundTrip_iff hs
  constructor
  · exact fun h => hback.mp h.back
  · intro hterm
    exact ⟨fun cs hcs => (Encoding.convertView_iff hcs).mpr hterm, hback.mpr hterm⟩

theorem convertsNarrow_iff {u : View UInt8} (hu : utf8.WellFormed u.units) :
    ConvertsNarrow u ↔ u.Terminated 0 := by
  have hback : (∃ units, utf8ToUtf16 u = some units ∧
      utf16ToUtf8 (.ofString 0 units) = some u.units) ↔ u.Terminated 0 :=
    Encoding.roundTrip_iff hu
  constructor
  · exact fun h => hback.mp h.back
  · intro hterm
    exact ⟨fun cs hcs => (Encoding.convertView_iff hcs).mpr hterm, hback.mpr hterm⟩

/-- Both conversions are exact, and inverse to each other, exactly on the views that end where their
C strings do. -/
theorem conversion_iff (s : View UInt16) (u : View UInt8) (hs : utf16.WellFormed s.units)
    (hu : utf8.WellFormed u.units) :
    (ConvertsWide s ↔ s.Terminated 0) ∧ (ConvertsNarrow u ↔ u.Terminated 0) :=
  ⟨convertsWide_iff hs, convertsNarrow_iff hu⟩

/-- A character of each length: one byte, two, three and four (a pair of units). -/
def lengths : List Char :=
  ['a', 'é', '€', '😀']

theorem conversion_iff_lengths :
    (ConvertsWide (.ofString 0 (utf16Encode lengths)) ↔
        (View.ofString 0 (utf16Encode lengths)).Terminated 0) ∧
      (ConvertsNarrow (.ofString 0 (utf8Encode lengths)) ↔
        (View.ofString 0 (utf8Encode lengths)).Terminated 0) :=
  conversion_iff _ _ ⟨lengths, (View.units_ofString _).symm⟩ ⟨lengths, (View.units_ofString _).symm⟩

/-- The first two characters of a longer literal. -/
def literalView : View UInt16 where
  buffer := utf16Encode ['a', 'b', 'c', '\x00']
  start := 0
  length := 2
  inside := by decide

/-- A view inside a longer string is converted past its end, and a view with a U+0000 in it is cut
there. -/
theorem conversion_not_exact :
    utf16.WellFormed literalView.units ∧
      utf16ToUtf8 literalView = some (utf8Encode ['a', 'b', 'c']) ∧ ¬ ConvertsWide literalView ∧
      utf16ToUtf8 (.ofString 0 (utf16Encode ['a', '\x00', 'b'])) = some (utf8Encode ['a']) ∧
      ¬ ConvertsWide (.ofString 0 (utf16Encode ['a', '\x00', 'b'])) := by
  refine ⟨⟨['a', 'b'], by decide⟩, by decide, fun h => ?_, by decide, fun h => ?_⟩
  · exact absurd (h.encodes ['a', 'b'] (by decide)) (by decide)
  · exact absurd (h.encodes ['a', '\x00', 'b'] (by decide)) (by decide)

/-- `InitializeDevice` passes `desc.Description`, an array with a zero unit in it, which becomes a
view of its C string. -/
theorem convertsWide_description {description : List UInt16} (hnul : 0 ∈ description)
    (hform : utf16.WellFormed (description.takeWhile (· != 0))) :
    ConvertsWide (.ofPointer 0 description) := by
  rw [← View.units_ofPointer] at hform
  exact (convertsWide_iff hform).mpr (View.terminated_ofPointer hnul)

end FlavoEngine.Core

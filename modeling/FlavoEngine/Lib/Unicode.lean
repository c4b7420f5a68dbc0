import FlavoEngine.Lib.CString

/-!
# Unicode encodings

An encoding writes a text in units and reads exactly what it writes. UTF-8 and UTF-16 are two of
them; converting between two encodings is reading one and writing the other.

Results:
1. `utf16Decode_encode`, `utf16Encode_of_decode`: UTF-16 reads exactly what it writes.
2. `Encoding.convertView_iff`: the conversion of a view through its C string is that of its units
   exactly when the view is terminated.
3. `Encoding.roundTrip_iff`: it can be converted back to its units exactly then.
-/

namespace FlavoEngine.Lib

/-! ## UTF-8 -/

/-- The UTF-8 bytes of a text. -/
def utf8Encode (cs : List Char) : List UInt8 :=
  cs.flatMap String.utf8EncodeChar

/-- The text of UTF-8 bytes; `none` when they are not well formed. -/
def utf8Decode (bytes : List UInt8) : Option (List Char) :=
  bytes.toByteArray.utf8Decode?.map Array.toList

theorem utf8Decode_encode (cs : List Char) : utf8Decode (utf8Encode cs) = some cs := by
  have hbytes : (utf8Encode cs).toByteArray = cs.utf8Encode := rfl
  unfold utf8Decode
  rw [hbytes, List.utf8Decode?_utf8Encode]
  rfl

theorem utf8Encode_of_decode {bytes : List UInt8} {cs : List Char}
    (h : utf8Decode bytes = some cs) : utf8Encode cs = bytes := by
  unfold utf8Decode at h
  obtain ⟨chars, hchars, rfl⟩ := Option.map_eq_some_iff.mp h
  have hget : bytes.toByteArray.utf8Decode?.get (Option.isSome_of_eq_some hchars) = chars :=
    Option.get_of_eq_some _ hchars
  rw [← List.toByteArray_inj, ← hget]
  exact ByteArray.utf8Encode_get_utf8Decode?

theorem zero_eq_ofNat8 (n : Nat) : 0 = UInt8.ofNat n ↔ n % 256 = 0 := by
  rw [← UInt8.toNat_inj, UInt8.toNat_ofNat']
  exact eq_comm

theorem eq_nul_iff (c : Char) : c = '\x00' ↔ c.toNat = 0 :=
  Char.toNat_inj.symm

/-- Only U+0000 has a zero byte. -/
theorem zero_mem_utf8EncodeChar (c : Char) : 0 ∈ String.utf8EncodeChar c ↔ c = '\x00' := by
  rw [eq_nul_iff, Char.toNat]
  unfold String.utf8EncodeChar
  dsimp only
  split_ifs <;>
    simp only [List.mem_cons, List.not_mem_nil, or_false, zero_eq_ofNat8] <;> omega

theorem zero_mem_utf8Encode (cs : List Char) : 0 ∈ utf8Encode cs ↔ '\x00' ∈ cs := by
  simp [utf8Encode, zero_mem_utf8EncodeChar]

/-! ## UTF-16 -/

/-- The first unit of a pair. -/
def IsLead (u : UInt16) : Prop :=
  0xD800 ≤ u.toNat ∧ u.toNat < 0xDC00

/-- The second unit of a pair. -/
def IsTrail (u : UInt16) : Prop :=
  0xDC00 ≤ u.toNat ∧ u.toNat < 0xE000

instance (u : UInt16) : Decidable (IsLead u) :=
  inferInstanceAs (Decidable (_ ∧ _))

instance (u : UInt16) : Decidable (IsTrail u) :=
  inferInstanceAs (Decidable (_ ∧ _))

/-- One unit for a character of the basic plane, a pair for any other. -/
def utf16EncodeChar (c : Char) : List UInt16 :=
  if c.toNat < 0x10000 then [UInt16.ofNat c.toNat]
  else [UInt16.ofNat (0xD800 + (c.toNat - 0x10000) / 0x400),
    UInt16.ofNat (0xDC00 + (c.toNat - 0x10000) % 0x400)]

/-- The character of a pair. -/
def pairChar (u v : UInt16) : Char :=
  Char.ofNat (0x10000 + (u.toNat - 0xD800) * 0x400 + (v.toNat - 0xDC00))

/-- The UTF-16 units of a text. -/
def utf16Encode (cs : List Char) : List UInt16 :=
  cs.flatMap utf16EncodeChar

/-- The text of UTF-16 units; `none` when a lead or a trail unit has no partner. -/
def utf16Decode : List UInt16 → Option (List Char)
  | [] => some []
  | u :: us =>
    if IsLead u then
      match us with
      | [] => none
      | v :: rest => if IsTrail v then (utf16Decode rest).map (pairChar u v :: ·) else none
    else if IsTrail u then none
    else (utf16Decode us).map (Char.ofNat u.toNat :: ·)

/-- A character is below the surrogates or above them, and below the end of the last plane. -/
theorem toNat_cases (c : Char) :
    c.toNat < 0xD800 ∨ (0xE000 ≤ c.toNat ∧ c.toNat < 0x110000) := by
  obtain h | h := c.valid
  · exact Or.inl h
  · exact Or.inr ⟨Nat.succ_le_of_lt h.1, h.2⟩

theorem toNat_ofNat {n : Nat} (h : n < 0xD800 ∨ (0xE000 ≤ n ∧ n < 0x110000)) :
    (Char.ofNat n).toNat = n := by
  have hvalid : n.isValidChar := by
    obtain h | h := h
    · exact Or.inl h
    · exact Or.inr ⟨h.1, h.2⟩
  unfold Char.ofNat
  rw [dif_pos hvalid]
  rfl

theorem toNat_ofNat16 {n : Nat} (h : n < 0x10000) : (UInt16.ofNat n).toNat = n := by
  rw [UInt16.toNat_ofNat']
  exact Nat.mod_eq_of_lt h

theorem utf16Decode_cons (u : UInt16) (us : List UInt16) :
    utf16Decode (u :: us) =
      if IsLead u then
        match us with
        | [] => none
        | v :: rest => if IsTrail v then (utf16Decode rest).map (pairChar u v :: ·) else none
      else if IsTrail u then none
      else (utf16Decode us).map (Char.ofNat u.toNat :: ·) := by
  rw [utf16Decode.eq_def]

/-- A character of the basic plane is its unit. -/
theorem utf16Decode_unit {n : Nat} (h : n < 0xD800 ∨ (0xE000 ≤ n ∧ n < 0x10000))
    (us : List UInt16) :
    utf16Decode (UInt16.ofNat n :: us) = (utf16Decode us).map (Char.ofNat n :: ·) := by
  have hn : (UInt16.ofNat n).toNat = n := toNat_ofNat16 (by omega)
  have hlead : ¬ IsLead (UInt16.ofNat n) := by
    unfold IsLead
    omega
  have htrail : ¬ IsTrail (UInt16.ofNat n) := by
    unfold IsTrail
    omega
  rw [utf16Decode_cons, if_neg hlead, if_neg htrail, hn]

/-- A pair is the character that is made of it. -/
theorem utf16Decode_pair {u v : UInt16} (hu : IsLead u) (hv : IsTrail v) (us : List UInt16) :
    utf16Decode (u :: v :: us) = (utf16Decode us).map (pairChar u v :: ·) := by
  rw [utf16Decode, if_pos hu, if_pos hv]

theorem utf16Decode_encodeChar (c : Char) (us : List UInt16) :
    utf16Decode (utf16EncodeChar c ++ us) = (utf16Decode us).map (c :: ·) := by
  have hc := toNat_cases c
  unfold utf16EncodeChar
  split
  · next hbasic =>
    rw [List.singleton_append, utf16Decode_unit (by omega), Char.ofNat_toNat]
  · next hother =>
    have hlead := toNat_ofNat16 (n := 0xD800 + (c.toNat - 0x10000) / 0x400) (by omega)
    have htrail := toNat_ofNat16 (n := 0xDC00 + (c.toNat - 0x10000) % 0x400) (by omega)
    rw [List.cons_append, List.singleton_append, utf16Decode_pair (by unfold IsLead; omega)
      (by unfold IsTrail; omega), pairChar, hlead, htrail]
    have hsum : 0x10000 + (0xD800 + (c.toNat - 0x10000) / 0x400 - 0xD800) * 0x400 +
        (0xDC00 + (c.toNat - 0x10000) % 0x400 - 0xDC00) = c.toNat := by
      omega
    rw [hsum, Char.ofNat_toNat]

theorem utf16Encode_cons (c : Char) (cs : List Char) :
    utf16Encode (c :: cs) = utf16EncodeChar c ++ utf16Encode cs := rfl

theorem utf16Decode_encode (cs : List Char) : utf16Decode (utf16Encode cs) = some cs := by
  induction cs with
  | nil => rfl
  | cons c cs ih =>
    rw [utf16Encode_cons, utf16Decode_encodeChar, ih]
    rfl

theorem utf16EncodeChar_unit {u : UInt16} (hlead : ¬ IsLead u) (htrail : ¬ IsTrail u) :
    utf16EncodeChar (Char.ofNat u.toNat) = [u] := by
  have hlt := u.toNat_lt
  unfold IsLead at hlead
  unfold IsTrail at htrail
  have hn : (Char.ofNat u.toNat).toNat = u.toNat := toNat_ofNat (by omega)
  unfold utf16EncodeChar
  rw [hn, if_pos hlt, UInt16.ofNat_toNat]

theorem utf16EncodeChar_pair {u v : UInt16} (hu : IsLead u) (hv : IsTrail v) :
    utf16EncodeChar (pairChar u v) = [u, v] := by
  obtain ⟨hu₁, hu₂⟩ := hu
  obtain ⟨hv₁, hv₂⟩ := hv
  have hn : (pairChar u v).toNat = 0x10000 + (u.toNat - 0xD800) * 0x400 + (v.toNat - 0xDC00) :=
    toNat_ofNat (by omega)
  have hlead : 0xD800 + ((pairChar u v).toNat - 0x10000) / 0x400 = u.toNat := by omega
  have htrail : 0xDC00 + ((pairChar u v).toNat - 0x10000) % 0x400 = v.toNat := by omega
  unfold utf16EncodeChar
  rw [if_neg (by omega), hlead, htrail, UInt16.ofNat_toNat, UInt16.ofNat_toNat]

theorem utf16Encode_of_decode {us : List UInt16} {cs : List Char}
    (h : utf16Decode us = some cs) : utf16Encode cs = us := by
  induction us using utf16Decode.induct generalizing cs with
  | case1 =>
    cases h
    rfl
  | case2 u hlead =>
    rw [utf16Decode, if_pos hlead] at h
    cases h
  | case3 u hlead v rest htrail ih =>
    rw [utf16Decode_pair hlead htrail] at h
    obtain ⟨tail, htail, rfl⟩ := Option.map_eq_some_iff.mp h
    rw [utf16Encode_cons, utf16EncodeChar_pair hlead htrail, ih htail]
    rfl
  | case4 u hlead v rest htrail =>
    rw [utf16Decode, if_pos hlead, if_neg htrail] at h
    cases h
  | case5 u us hlead htrail =>
    rw [utf16Decode_cons, if_neg hlead, if_pos htrail] at h
    cases h
  | case6 u us hlead htrail ih =>
    rw [utf16Decode_cons, if_neg hlead, if_neg htrail] at h
    obtain ⟨tail, htail, rfl⟩ := Option.map_eq_some_iff.mp h
    rw [utf16Encode_cons, utf16EncodeChar_unit hlead htrail, ih htail]
    rfl

theorem zero_eq_ofNat16 {n : Nat} (h : n < 0x10000) : 0 = UInt16.ofNat n ↔ n = 0 := by
  rw [← UInt16.toNat_inj, toNat_ofNat16 h]
  exact eq_comm

/-- Only U+0000 has a zero unit. -/
theorem zero_mem_utf16EncodeChar (c : Char) : 0 ∈ utf16EncodeChar c ↔ c = '\x00' := by
  have hc := toNat_cases c
  rw [eq_nul_iff]
  unfold utf16EncodeChar
  split
  · next hbasic =>
    rw [List.mem_singleton, zero_eq_ofNat16 hbasic]
  · next hother =>
    rw [List.mem_cons, List.mem_singleton, zero_eq_ofNat16 (by omega), zero_eq_ofNat16 (by omega)]
    omega

theorem zero_mem_utf16Encode (cs : List Char) : 0 ∈ utf16Encode cs ↔ '\x00' ∈ cs := by
  simp [utf16Encode, zero_mem_utf16EncodeChar]

example : utf16Decode [0xD83D, 0xDE00] = some ['😀'] := by decide

/-! ## Converting between encodings -/

/-- An encoding writes a text in units and reads exactly what it writes; the terminator is the unit
of U+0000. -/
structure Encoding (α : Type) where
  encode : List Char → List α
  decode : List α → Option (List Char)
  nul : α
  decode_encode : ∀ cs, decode (encode cs) = some cs
  encode_of_decode : ∀ {us cs}, decode us = some cs → encode cs = us
  nul_mem_encode : ∀ cs, nul ∈ encode cs ↔ '\x00' ∈ cs

/-- UTF-8. -/
def utf8 : Encoding UInt8 where
  encode := utf8Encode
  decode := utf8Decode
  nul := 0
  decode_encode := utf8Decode_encode
  encode_of_decode := utf8Encode_of_decode
  nul_mem_encode := zero_mem_utf8Encode

/-- UTF-16. -/
def utf16 : Encoding UInt16 where
  encode := utf16Encode
  decode := utf16Decode
  nul := 0
  decode_encode := utf16Decode_encode
  encode_of_decode := utf16Encode_of_decode
  nul_mem_encode := zero_mem_utf16Encode

namespace Encoding

variable {α β : Type} (src : Encoding α) (dst : Encoding β)

/-- The units are the encoding of a text. -/
def WellFormed (us : List α) : Prop :=
  ∃ cs, src.encode cs = us

/-- Reads one encoding and writes the other. -/
def convert (us : List α) : Option (List β) :=
  (src.decode us).map dst.encode

variable {src dst}

theorem convert_eq_some {us : List α} {ws : List β} :
    src.convert dst us = some ws ↔ ∃ cs, src.encode cs = us ∧ dst.encode cs = ws := by
  unfold convert
  rw [Option.map_eq_some_iff]
  constructor
  · rintro ⟨cs, hdecode, hencode⟩
    exact ⟨cs, src.encode_of_decode hdecode, hencode⟩
  · rintro ⟨cs, rfl, hencode⟩
    exact ⟨cs, src.decode_encode cs, hencode⟩

theorem convert_symm {us : List α} {ws : List β} (h : src.convert dst us = some ws) :
    dst.convert src ws = some us := by
  rw [convert_eq_some] at h ⊢
  obtain ⟨cs, hus, hws⟩ := h
  exact ⟨cs, hws, hus⟩

/-- A conversion loses no unit and adds none. -/
theorem convert_inj {us vs : List α} {ws : List β} (hus : src.convert dst us = some ws)
    (hvs : src.convert dst vs = some ws) : us = vs :=
  Option.some.inj ((convert_symm hus).symm.trans (convert_symm hvs))

theorem nul_mem_convert {us : List α} {ws : List β} (h : src.convert dst us = some ws) :
    dst.nul ∈ ws ↔ src.nul ∈ us := by
  obtain ⟨cs, rfl, rfl⟩ := convert_eq_some.mp h
  rw [dst.nul_mem_encode, src.nul_mem_encode]

variable [DecidableEq α]

variable (src dst) in
/-- Converts the C string that starts where the view does. -/
def convertView (v : View α) : Option (List β) :=
  (v.cString src.nul).bind (src.convert dst)

/-- A C string has no terminator in it. -/
theorem nul_not_mem_cString {v : View α} {us : List α} (h : v.cString src.nul = some us) :
    src.nul ∉ us := by
  unfold View.cString at h
  split at h
  · cases h
    exact View.not_mem_takeWhile (v.buffer.drop v.start)
  · cases h

theorem convertView_of_terminated {v : View α} (h : v.Terminated src.nul) :
    src.convertView dst v = src.convert dst v.units := by
  unfold convertView
  rw [View.cString_of_terminated h]
  rfl

/-- The conversion of a view is the encoding of its units exactly when the view is terminated. -/
theorem convertView_iff {v : View α} {cs : List Char} (hv : src.encode cs = v.units) :
    src.convertView dst v = some (dst.encode cs) ↔ v.Terminated src.nul := by
  have hconvert : src.convert dst v.units = some (dst.encode cs) :=
    convert_eq_some.mpr ⟨cs, hv, rfl⟩
  constructor
  · intro h
    obtain ⟨us, hcString, hus⟩ := Option.bind_eq_some_iff.mp h
    rw [convert_inj hus hconvert] at hcString
    exact View.terminated_of_cString hcString
  · intro h
    rw [convertView_of_terminated h, hconvert]

variable [DecidableEq β]

/-- The string that a conversion leaves is converted back to the C string that was read. -/
theorem convertView_back {v : View α} {ws : List β} (h : src.convertView dst v = some ws) :
    dst.convertView src (.ofString dst.nul ws) = v.cString src.nul := by
  obtain ⟨us, hcString, hus⟩ := Option.bind_eq_some_iff.mp h
  have hnul : dst.nul ∉ ws := by
    rw [nul_mem_convert hus]
    exact nul_not_mem_cString hcString
  rw [convertView_of_terminated (View.terminated_ofString.mpr hnul), View.units_ofString,
    convert_symm hus, hcString]

/-- A view can be converted and back exactly when it is terminated. -/
theorem roundTrip_iff {v : View α} (hv : src.WellFormed v.units) :
    (∃ ws, src.convertView dst v = some ws ∧
        dst.convertView src (.ofString dst.nul ws) = some v.units) ↔
      v.Terminated src.nul := by
  constructor
  · rintro ⟨ws, hws, hback⟩
    rw [convertView_back hws] at hback
    exact View.terminated_of_cString hback
  · intro h
    obtain ⟨cs, hcs⟩ := hv
    have hws : src.convertView dst v = some (dst.encode cs) := (convertView_iff hcs).mpr h
    refine ⟨dst.encode cs, hws, ?_⟩
    rw [convertView_back hws]
    exact View.cString_of_terminated h

end Encoding

end FlavoEngine.Lib

import SearchClient.Text.Percent
import Mathlib.Data.List.Basic

/-!
# Percent encoding is read back

What is written with a percent sign and two digits is read as the byte it was (`decode_encode`), as
long as percent signs are encoded themselves. `mem_encode` tells which characters an encoded text
has: those that may stand for themselves, percent signs and digits.
-/

set_option autoImplicit false
set_option relaxedAutoImplicit false

namespace SearchClient.Text

/-! ### Bytes of texts -/

theorem Utf8.encode_ofList (cs : List Char) :
    encode (String.ofList cs) = cs.flatMap String.utf8EncodeChar := by
  simp [encode, List.utf8Encode]

/-- Different texts have different bytes. -/
theorem Utf8.encode_inj {s t : String} : encode s = encode t ↔ s = t := by
  constructor
  · intro h
    refine String.toByteArray_inj.mp (ByteArray.ext (Array.toList_inj.mp ?_))
    simpa [encode] using h
  · rintro rfl
    rfl

namespace Percent

variable {reserved : Char → Bool} {c : Char} {cs rest : List Char}

/-! ### Reading -/

theorem hexValue?_hexDigit : ∀ n < 16, hexValue? (hexDigit n) = some n := by
  decide

/-- A written byte is read as the byte. -/
theorem decode_encodeByte (b : UInt8) (rest : List Char) :
    decode (encodeByte b ++ rest) = b :: decode rest := by
  have hb := b.toNat_lt
  have hhigh := hexValue?_hexDigit (b.toNat / 16) (by omega)
  have hlow := hexValue?_hexDigit (b.toNat % 16) (by omega)
  have hsum : b.toNat / 16 * 16 + b.toNat % 16 = b.toNat := by omega
  simp only [encodeByte, List.cons_append, List.nil_append, decode, hhigh, hlow, hsum,
    UInt8.ofNat_toNat]

theorem decode_encodeBytes (bytes : Bytes) (rest : List Char) :
    decode (bytes.flatMap encodeByte ++ rest) = bytes ++ decode rest := by
  induction bytes with
  | nil => rfl
  | cons b bytes ih =>
    rw [List.flatMap_cons, List.append_assoc, decode_encodeByte, ih, List.cons_append]

/-- A character that is no percent sign stands for itself. -/
theorem decode_cons_of_ne (h : c ≠ '%') (rest : List Char) :
    decode (c :: rest) = String.utf8EncodeChar c ++ decode rest := by
  rw [decode]
  exact fun high low rest' hsign _ ↦ h hsign

theorem decode_encodeChar (hpercent : reserved '%' = true) (c : Char) (rest : List Char) :
    decode (encodeChar reserved c ++ rest) = String.utf8EncodeChar c ++ decode rest := by
  unfold encodeChar
  split_ifs with hreserved
  · exact decode_encodeBytes ..
  · refine decode_cons_of_ne ?_ rest
    rintro rfl
    simp [hpercent] at hreserved

/-- An encoded text is read as the bytes of the text. -/
theorem decode_encode (hpercent : reserved '%' = true) (cs : List Char) :
    decode (encode reserved cs) = Utf8.encode (String.ofList cs) := by
  rw [Utf8.encode_ofList]
  induction cs with
  | nil => rfl
  | cons c cs ih =>
    rw [encode, List.flatMap_cons, decode_encodeChar hpercent, List.flatMap_cons]
    exact congrArg _ ih

/-- A character of ASCII that can have no part in a written byte is read as its byte. -/
theorem mem_decode (hascii : c.toNat < 128) (hpercent : c ≠ '%') (hdigit : hexValue? c = none)
    (h : c ∈ cs) : UInt8.ofNat c.toNat ∈ decode cs := by
  have hbyte : UInt8.ofNat c.toNat ∈ String.utf8EncodeChar c := by
    rw [String.utf8EncodeChar, if_pos (by exact Nat.le_of_lt_succ hascii)]
    exact List.mem_singleton_self _
  fun_induction decode cs with
  | case1 => cases h
  | case2 high low rest m n hlow hhigh ih =>
    -- The digits behind the sign have values, and the character has none.
    obtain rfl | rfl | rfl | h := by simpa using h
    · exact absurd rfl hpercent
    · rw [hdigit] at hhigh
      cases hhigh
    · rw [hdigit] at hlow
      cases hlow
    · exact List.mem_cons_of_mem _ (ih h)
  | case3 high low rest hnone ih =>
    obtain rfl | h := List.mem_cons.mp h
    · exact absurd rfl hpercent
    · exact List.mem_cons_of_mem _ (ih h)
  | case4 d rest hother ih =>
    obtain rfl | h := List.mem_cons.mp h
    · exact List.mem_append_left _ hbyte
    · exact List.mem_append_right _ (ih h)

/-! ### Characters of encoded texts -/

/-- The characters of an encoded text. -/
theorem mem_encode (h : c ∈ encode reserved cs) :
    (c ∈ cs ∧ reserved c = false) ∨ c = '%' ∨ ∃ n < 16, c = hexDigit n := by
  obtain ⟨original, horiginal, hc⟩ := List.mem_flatMap.mp h
  unfold encodeChar at hc
  split_ifs at hc with hreserved
  · obtain ⟨b, -, hc⟩ := List.mem_flatMap.mp hc
    have hb := b.toNat_lt
    simp only [encodeByte, List.mem_cons, List.not_mem_nil, or_false] at hc
    obtain hc | hc | hc := hc
    · exact .inr (.inl hc)
    · exact .inr (.inr ⟨_, by omega, hc⟩)
    · exact .inr (.inr ⟨_, by omega, hc⟩)
  · obtain rfl := List.mem_singleton.mp hc
    simp only [Bool.or_eq_true, not_or, Bool.not_eq_true] at hreserved
    exact .inl ⟨horiginal, hreserved.1⟩

/-- A character that neither is written nor can be a part of what is written does not turn up. -/
theorem not_mem_encode (hc : c ∉ cs ∨ reserved c = true) (hpercent : c ≠ '%')
    (hdigit : ∀ n < 16, c ≠ hexDigit n) : c ∉ encode reserved cs := by
  intro h
  obtain ⟨hmem, hreserved⟩ | hsign | ⟨n, hn, hc⟩ := mem_encode h
  · obtain hc | hc := hc
    · exact hc hmem
    · rw [hreserved] at hc
      cases hc
  · exact hpercent hsign
  · exact hdigit n hn hc

end Percent

end SearchClient.Text

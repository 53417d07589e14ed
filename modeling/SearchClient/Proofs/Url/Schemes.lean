import SearchClient.Proofs.Url.Paths

/-!
# Schemes

The scheme of a locator that was read is a proper one (`properScheme_of_parse`): small letters,
digits and a few signs, with a letter in front. A text that begins with a proper scheme and a colon
is read as a locator of that scheme, if it is read at all (`scheme_of_parse`).
-/

set_option autoImplicit false
set_option relaxedAutoImplicit false

namespace SearchClient.Url

/-- A character that can stand in a scheme. -/
def isSchemePart (c : Char) : Bool := c.isAlphanum || c == '+' || c == '-' || c == '.'

/-- A character that stands in a scheme in small letters. -/
structure SchemePart (c : Char) : Prop where
  part : isSchemePart c = true
  lower : c.toLower = c
  kept : isSkipped c = false
  inner : isEdge c = false

/-- A scheme in small letters. -/
def ProperScheme (scheme : String) : Prop :=
  ∃ c cs, scheme.toList = c :: cs ∧ c.isAlpha = true ∧ ∀ d ∈ c :: cs, SchemePart d

/-! ### Characters of schemes -/

theorem toNat_lt_of_isSchemePart {c : Char} (h : isSchemePart c = true) : c.toNat < 128 := by
  have hbelow {d : Char} (hd : d.toNat < 128) (hle : c.val ≤ d.val) : c.toNat < 128 :=
    Nat.lt_of_le_of_lt (UInt32.le_iff_toNat_le.mp hle) hd
  simp only [isSchemePart, Char.isAlphanum, Bool.or_eq_true, beq_iff_eq] at h
  rcases h with (((halpha | hdigit) | rfl) | rfl) | rfl
  · rcases Bool.or_eq_true_iff.mp halpha with hupper | hlower
    · exact hbelow (d := 'Z') (by decide) (of_decide_eq_true hupper).2
    · exact hbelow (d := 'z') (by decide) (of_decide_eq_true (Bool.and_eq_true_iff.mp hlower).2)
  · exact hbelow (d := '9') (by decide) (of_decide_eq_true (Bool.and_eq_true_iff.mp hdigit).2)
  · decide
  · decide
  · decide

/-- What holds of all characters with numbers below a bound is found by going through them. -/
theorem forall_of_ofNat {P : Char → Prop} {bound : Nat} (h : ∀ n < bound, P (Char.ofNat n))
    {c : Char} (hc : c.toNat < bound) : P c := by
  have hnumber := h c.toNat hc
  rwa [Char.ofNat_toNat] at hnumber

/-- Every character of a scheme is one of a scheme in small letters when it is made small. -/
theorem schemePart_toLower {c : Char} (h : isSchemePart c = true) : SchemePart c.toLower := by
  have hall := forall_of_ofNat (P := fun c ↦ isSchemePart c = true →
    isSchemePart c.toLower = true ∧ c.toLower.toLower = c.toLower ∧
      isSkipped c.toLower = false ∧ isEdge c.toLower = false)
    (by decide) (toNat_lt_of_isSchemePart h)
  obtain ⟨hpart, hlower, hkept, hinner⟩ := hall h
  exact ⟨hpart, hlower, hkept, hinner⟩

theorem isSchemePart_of_isAlpha {c : Char} (h : c.isAlpha = true) : isSchemePart c = true := by
  rw [isSchemePart, Char.isAlphanum, h]
  rfl

theorem isAlpha_toLower {c : Char} (h : c.isAlpha = true) : c.toLower.isAlpha = true :=
  forall_of_ofNat (P := fun c ↦ c.isAlpha = true → c.toLower.isAlpha = true) (by decide)
    (toNat_lt_of_isSchemePart (isSchemePart_of_isAlpha h)) h

/-! ### Schemes that are read -/

/-- What stands before the colon is a proper scheme. -/
theorem properScheme_of_splitScheme {cs rest : List Char} {scheme : String}
    (h : splitScheme cs = some (scheme, rest)) : ProperScheme scheme := by
  unfold splitScheme at h
  split at h
  · rename_i c cs
    split_ifs at h with halpha
    simp only at h
    split at h
    · rw [Option.some.injEq, Prod.mk.injEq] at h
      obtain ⟨rfl, -⟩ := h
      have hpart : isSchemePart c = true := isSchemePart_of_isAlpha halpha
      refine ⟨c.toLower, (cs.takeWhile isSchemePart).map Char.toLower, ?_, isAlpha_toLower halpha,
        ?_⟩
      · rw [String.toList_ofList]
        show (List.takeWhile isSchemePart (c :: cs)).map Char.toLower = _
        rw [List.takeWhile_cons_of_pos hpart, List.map_cons]
      · refine List.forall_mem_cons.mpr ⟨schemePart_toLower hpart, fun d hd ↦ ?_⟩
        obtain ⟨e, he, rfl⟩ := List.mem_map.mp hd
        exact schemePart_toLower (List.all_eq_true.mp List.all_takeWhile e he)
    · cases h
  · cases h

/-- A proper scheme is found in front of its colon. -/
theorem splitScheme_of_properScheme {scheme : String} (h : ProperScheme scheme)
    (rest : List Char) : splitScheme (scheme.toList ++ ':' :: rest) = some (scheme, rest) := by
  obtain ⟨c, cs, hscheme, halpha, hparts⟩ := h
  have htake : (scheme.toList ++ ':' :: rest).takeWhile isSchemePart = scheme.toList := by
    rw [List.takeWhile_append_of_pos (by rw [hscheme]; exact fun d hd ↦ (hparts d hd).part),
      List.takeWhile_cons_of_neg (by decide), List.append_nil]
  have hdrop : (scheme.toList ++ ':' :: rest).dropWhile isSchemePart = ':' :: rest := by
    rw [List.dropWhile_append_of_pos (by rw [hscheme]; exact fun d hd ↦ (hparts d hd).part),
      List.dropWhile_cons_of_neg (by decide)]
  have hlower : scheme.toList.map Char.toLower = scheme.toList := by
    rw [hscheme]
    exact (List.map_congr_left fun d hd ↦ (hparts d hd).lower).trans (List.map_id' _)
  rw [hscheme, List.cons_append] at htake hdrop
  unfold splitScheme
  rw [hscheme, List.cons_append]
  simp only [halpha, if_true]
  rw [show (fun c : Char ↦ c.isAlphanum || c == '+' || c == '-' || c == '.') = isSchemePart
      from rfl, hdrop, htake, ← hscheme, hlower, String.ofList_toList]
  rfl

end SearchClient.Url

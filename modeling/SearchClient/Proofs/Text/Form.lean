import SearchClient.Proofs.Text.Split
import SearchClient.Proofs.Text.Utf8
import SearchClient.Text.Form

/-!
# Pairs are read back from a form

Neither the sign inside a pair nor the one between pairs is left standing in a key or a value, so a
form is cut where it was joined, and each key and value is read back (`decode_encode`). A plus sign
of their own is encoded, so each plus sign that is met stands for a blank.
-/

set_option autoImplicit false
set_option relaxedAutoImplicit false

namespace SearchClient.Text

namespace Form

/-! ### Keys and values -/

/-- A sign that is encoded turns up in no key and no value. -/
theorem not_mem_encodeText {sign : Char} (hplain : plain sign = false) (hplus : sign ≠ '+')
    (hpercent : sign ≠ '%') (hdigit : ∀ n < 16, sign ≠ Percent.hexDigit n) (s : String) :
    sign ∉ encodeText s := by
  intro h
  obtain ⟨c, hc, hsign⟩ := List.mem_flatMap.mp h
  split_ifs at hsign
  · exact hplus (List.mem_singleton.mp hsign)
  · have hencoded : sign ∈ Percent.encode (fun c ↦ !plain c) s.toList :=
      List.mem_flatMap.mpr ⟨c, hc, hsign⟩
    exact Percent.not_mem_encode (.inr (by simp [hplain])) hpercent hdigit hencoded

/-- What a character of a form stands for before its bytes are read. -/
def unplus (c : Char) : Char := if c = '+' then ' ' else c

/-- What is encoded of a key or a value whose blanks stand for themselves. -/
def encoded (c : Char) : Bool := !plain c && c != ' '

/-- A plus sign turns up in no character that is written as its bytes. -/
theorem map_unplus_encodeChar {c : Char} (hblank : c ≠ ' ') :
    (Percent.encodeChar (fun c ↦ !plain c) c).map unplus = Percent.encodeChar encoded c := by
  have hplus : '+' ∉ Percent.encode (fun c ↦ !plain c) [c] :=
    Percent.not_mem_encode (.inr rfl) (by decide) (by decide)
  rw [Percent.encode, List.flatMap_singleton] at hplus
  have hself : (Percent.encodeChar (fun c ↦ !plain c) c).map unplus =
      (Percent.encodeChar (fun c ↦ !plain c) c).map id := by
    refine List.map_congr_left fun d hd ↦ if_neg ?_
    rintro rfl
    exact hplus hd
  have hsame : encoded c = !plain c := by simp [encoded, hblank]
  rw [hself, List.map_id, Percent.encodeChar, Percent.encodeChar, hsame]

/-- With its plus signs read as blanks a key or a value is a percent-encoded text. -/
theorem map_unplus_encodeText (s : String) :
    (encodeText s).map unplus = Percent.encode encoded s.toList := by
  rw [encodeText, List.map_flatMap, Percent.encode]
  refine List.flatMap_congr fun c _ ↦ ?_
  split_ifs with hblank
  · subst hblank
    rfl
  · exact map_unplus_encodeChar hblank

/-- A key or a value is read back. -/
theorem decodeText_encodeText (s : String) : decodeText (encodeText s) = s := by
  have hplus : (fun c ↦ if c = '+' then ' ' else c) = unplus := rfl
  rw [decodeText, hplus, map_unplus_encodeText, Percent.decode_encode (by decide),
    String.ofList_toList, Utf8.lossy_encode]

/-! ### Pairs -/

theorem not_mem_encodePair (pair : String × String) : '&' ∉ encodePair pair := by
  have hsign (s : String) : '&' ∉ encodeText s :=
    not_mem_encodeText rfl (by decide) (by decide) (by decide) s
  simp [encodePair, hsign]

/-- A pair is read back. -/
theorem decodePair_encodePair (pair : String × String) : decodePair (encodePair pair) = pair := by
  have hsign : '=' ∉ encodeText pair.1 :=
    not_mem_encodeText rfl (by decide) (by decide) (by decide) pair.1
  rw [decodePair, encodePair, splitFirst_append hsign]
  simp only [decodeText_encodeText]

/-- Pairs are read back, each as often as it was written and in the same order. -/
theorem decode_encode (pairs : List (String × String)) : decode (encode pairs) = pairs := by
  cases pairs with
  | nil => rfl
  | cons pair pairs =>
    have hpieces : ∀ piece ∈ (pair :: pairs).map encodePair, '&' ∉ piece :=
      List.forall_mem_map.mpr fun other _ ↦ not_mem_encodePair other
    have hfilled : ∀ piece ∈ (pair :: pairs).map encodePair, decide (piece ≠ []) = true :=
      List.forall_mem_map.mpr fun other _ ↦ by simp [encodePair]
    rw [decode, encode, split_join (by simp) hpieces, List.filter_eq_self.mpr hfilled,
      List.map_map]
    exact (List.map_congr_left fun other _ ↦ decodePair_encodePair other).trans (List.map_id _)

end Form

end SearchClient.Text

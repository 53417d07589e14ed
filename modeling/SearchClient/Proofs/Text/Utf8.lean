import SearchClient.Proofs.Text.Percent
import Mathlib.Tactic.SplitIfs

/-!
# Texts are read back from their bytes

A character of up to four bytes is read back from them (`decode_encodeChar`): its first byte tells
how many follow and how the second one is bounded, and each of the others adds six bits. So a text
is read back from its bytes, strictly or not (`lossy_encode`).
-/

set_option autoImplicit false
set_option relaxedAutoImplicit false

namespace SearchClient.Text.Utf8

/-! ### Bytes that begin a character -/

theorem lead_single {n : Nat} (h : n < 0x80) : lead (UInt8.ofNat n) = .char (Char.ofNat n) := by
  have hn : n % 256 = n := by omega
  simp [lead, UInt8.lt_iff_toNat_lt, hn, h]

theorem lead_double {n : Nat} (hleast : 0xC2 ≤ n) (hmost : n < 0xE0) : lead (UInt8.ofNat n) =
    .pending ⟨1, 0x80, 0xBF, n - 0xC0, [UInt8.ofNat n]⟩ := by
  have hn : n % 256 = n := by omega
  simp only [lead, UInt8.lt_iff_toNat_lt, UInt8.toNat_ofNat', UInt8.reduceToNat, hn]
  rw [if_neg (by omega), if_neg (by omega), if_pos hmost]

theorem lead_triple {n : Nat} (hleast : 0xE0 ≤ n) (hmost : n < 0xF0) : lead (UInt8.ofNat n) =
    .pending ⟨2, if n = 0xE0 then 0xA0 else 0x80, if n = 0xED then 0x9F else 0xBF, n - 0xE0,
      [UInt8.ofNat n]⟩ := by
  have hn : n % 256 = n := by omega
  simp only [lead, UInt8.lt_iff_toNat_lt, ← UInt8.toNat_inj, UInt8.toNat_ofNat',
    UInt8.reduceToNat, hn]
  rw [if_neg (by omega), if_neg (by omega), if_neg (by omega), if_pos hmost]

theorem lead_quadruple {n : Nat} (hleast : 0xF0 ≤ n) (hmost : n < 0xF5) : lead (UInt8.ofNat n) =
    .pending ⟨3, if n = 0xF0 then 0x90 else 0x80, if n = 0xF4 then 0x8F else 0xBF, n - 0xF0,
      [UInt8.ofNat n]⟩ := by
  have hn : n % 256 = n := by omega
  simp only [lead, UInt8.lt_iff_toNat_lt, ← UInt8.toNat_inj, UInt8.toNat_ofNat',
    UInt8.reduceToNat, hn]
  rw [if_neg (by omega), if_neg (by omega), if_neg (by omega), if_neg (by omega), if_pos hmost]

/-! ### Bytes that go on with a character -/

variable {missing bits n : Nat} {low high : UInt8} {seen : Bytes}

/-- A byte within its bounds adds six bits. -/
theorem decodeFrom_more (hleast : low.toNat ≤ n) (hmost : n ≤ high.toNat) (rest : Bytes) :
    decodeFrom ⟨missing + 2, low, high, bits, seen⟩ (UInt8.ofNat n :: rest) =
      decodeFrom ⟨missing + 1, 0x80, 0xBF, bits * 64 + (n - 0x80), seen ++ [UInt8.ofNat n]⟩
        rest := by
  have hn : (UInt8.ofNat n).toNat = n :=
    UInt8.toNat_ofNat_of_lt (Nat.lt_of_le_of_lt hmost high.toNat_lt)
  rw [decodeFrom, if_pos (by simp [UInt8.le_iff_toNat_le, hn, hleast, hmost])]
  simp only [hn]

/-- The last byte of a character completes it. -/
theorem decodeFrom_last (hleast : low.toNat ≤ n) (hmost : n ≤ high.toNat) (rest : Bytes) :
    decodeFrom ⟨1, low, high, bits, seen⟩ (UInt8.ofNat n :: rest) =
      .char (Char.ofNat (bits * 64 + (n - 0x80))) :: decode rest := by
  have hn : (UInt8.ofNat n).toNat = n :=
    UInt8.toNat_ofNat_of_lt (Nat.lt_of_le_of_lt hmost high.toNat_lt)
  rw [decodeFrom, if_pos (by simp [UInt8.le_iff_toNat_le, hn, hleast, hmost])]
  simp only [hn]

/-! ### Characters and texts -/

theorem decode_of_pending {b : UInt8} {p : Pending} (h : lead b = .pending p) (rest : Bytes) :
    decode (b :: rest) = decodeFrom p rest := by
  rw [decode, h]

/-- A character is read back from its bytes. -/
theorem decode_encodeChar (c : Char) (rest : Bytes) :
    decode (String.utf8EncodeChar c ++ rest) = .char c :: decode rest := by
  have hvalid : c.toNat < 0xD800 ∨ 0xDFFF < c.toNat ∧ c.toNat < 0x110000 := c.valid
  have hc (n : Nat) (h : n = c.toNat) : Char.ofNat n = c := by rw [h, Char.ofNat_toNat]
  simp only [String.utf8EncodeChar, show c.val.toNat = c.toNat from rfl]
  generalize c.toNat = v at *
  split_ifs with hone htwo hthree
  · rw [List.singleton_append, decode, lead_single (by omega)]
    simp only [hc v rfl]
  · simp only [List.cons_append, List.nil_append]
    rw [decode_of_pending (lead_double (by omega) (by omega)),
      decodeFrom_last (by simp) (by simp; omega),
      hc _ (by omega)]
  · simp only [List.cons_append, List.nil_append]
    -- The bounds of the second byte keep out what is shorter, and the surrogates.
    have hlow : (if v / 4096 % 16 + 0xE0 = 0xE0 then (0xA0 : UInt8) else 0x80).toNat ≤
        v / 64 % 64 + 0x80 := by
      split_ifs
      · simp
        omega
      · simp
    have hhigh : v / 64 % 64 + 0x80 ≤
        (if v / 4096 % 16 + 0xE0 = 0xED then (0x9F : UInt8) else 0xBF).toNat := by
      split_ifs
      · simp
        omega
      · simp
        omega
    rw [decode_of_pending (lead_triple (by omega) (by omega)), decodeFrom_more hlow hhigh,
      decodeFrom_last (by simp) (by simp; omega),
      hc _ (by omega)]
  · simp only [List.cons_append, List.nil_append]
    have hlow : (if v / 262144 % 8 + 0xF0 = 0xF0 then (0x90 : UInt8) else 0x80).toNat ≤
        v / 4096 % 64 + 0x80 := by
      split_ifs
      · simp
        omega
      · simp
    have hhigh : v / 4096 % 64 + 0x80 ≤
        (if v / 262144 % 8 + 0xF0 = 0xF4 then (0x8F : UInt8) else 0xBF).toNat := by
      split_ifs
      · simp
        omega
      · simp
        omega
    rw [decode_of_pending (lead_quadruple (by omega) (by omega)), decodeFrom_more hlow hhigh,
      decodeFrom_more (by simp) (by simp; omega),
      decodeFrom_last (by simp) (by simp; omega),
      hc _ (by omega)]

/-- The glyphs of the bytes of a text are its characters. -/
theorem decode_encode (s : String) : decode (encode s) = glyphs s := by
  have hchars (cs : List Char) :
      decode (cs.flatMap String.utf8EncodeChar) = cs.map .char := by
    induction cs with
    | nil => rw [List.flatMap_nil, decode, List.map_nil]
    | cons c cs ih => rw [List.flatMap_cons, decode_encodeChar, ih, List.map_cons]
  have hbytes := encode_ofList s.toList
  rw [String.ofList_toList] at hbytes
  rw [hbytes, hchars, glyphs]

/-- A text is read back from its bytes. -/
theorem lossy_encode (s : String) : lossy (encode s) = s := by
  rw [lossy, decode_encode, glyphs, List.map_map]
  exact (congrArg String.ofList (List.map_id _)).trans String.ofList_toList

/-! ### Bytes of ASCII -/

variable {b : UInt8} {bytes : Bytes}

theorem lead_of_ascii (hb : b < 0x80) : lead b = .char (Char.ofNat b.toNat) := by
  rw [lead, if_pos hb]

/-- No byte that goes on with a character is as small as one of ASCII. -/
theorem le_low_of_lead {p : Pending} (h : lead b = .pending p) : 0x80 ≤ p.low := by
  unfold lead at h
  split_ifs at h <;> cases h <;> simp

/-- A byte of ASCII is read as a character wherever it stands. -/
theorem mem_decode_of_ascii (hb : b < 0x80) (h : b ∈ bytes) :
    .char (Char.ofNat b.toNat) ∈ decode bytes := by
  -- Inside a character too, since no byte of ASCII goes on with one.
  have hboth : .char (Char.ofNat b.toNat) ∈ decode bytes ∧
      ∀ p : Pending, 0x80 ≤ p.low → .char (Char.ofNat b.toNat) ∈ decodeFrom p bytes := by
    induction bytes with
    | nil => cases h
    | cons first bytes ih =>
      have hdecode : .char (Char.ofNat b.toNat) ∈ decode (first :: bytes) := by
        rw [decode]
        obtain rfl | h := List.mem_cons.mp h
        · rw [lead_of_ascii hb]
          exact List.mem_cons_self
        · obtain ⟨hdecode, hfrom⟩ := ih h
          split
          · exact List.mem_cons_of_mem _ hdecode
          · rename_i p hlead
            exact hfrom p (le_low_of_lead hlead)
          · exact List.mem_cons_of_mem _ hdecode
      refine ⟨hdecode, fun p hlow ↦ ?_⟩
      rw [decodeFrom]
      split_ifs with hgoes
      · have hlarge : 0x80 ≤ first := UInt8.le_trans hlow (by simp_all)
        obtain rfl | h := List.mem_cons.mp h
        · exact absurd hb (UInt8.not_lt.mpr hlarge)
        · obtain ⟨hdecode, hfrom⟩ := ih h
          simp only
          split
          · exact List.mem_cons_of_mem _ hdecode
          · exact List.mem_cons_of_mem _ hdecode
          · exact hfrom _ (UInt8.le_refl _)
      · rw [decode] at hdecode
        exact List.mem_cons_of_mem _ hdecode
  exact hboth.1

/-- A character of ASCII is read from its byte, however the other bytes are read. -/
theorem mem_lossy (hb : b < 0x80) (h : b ∈ bytes) :
    Char.ofNat b.toNat ∈ (lossy bytes).toList := by
  rw [lossy, String.toList_ofList]
  exact List.mem_map_of_mem (mem_decode_of_ascii hb h)

end SearchClient.Text.Utf8

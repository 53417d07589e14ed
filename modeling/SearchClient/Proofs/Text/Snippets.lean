import SearchClient.Text.Snippet

/-!
# Snippets end between characters

A snippet can be cut from the bytes of a text: from the place at which the room ends one goes back
byte by byte to a place where a character begins, and takes what stands before it (`snippet?`). This
could go wrong in two ways, with no place to go back to and with a cut into a character. Neither
happens, since the longest beginning that fits (`IsLongestFront`) ends at such a place and no other
one lies between it and the end of the room (`boundaryBefore?_eq`). It falls short of the room by
less than the four bytes that a character may take up.
-/

set_option autoImplicit false
set_option relaxedAutoImplicit false

namespace SearchClient.Text

variable {s front : String} {cs : List Char} {room : Nat}

/-! ### Beginnings of a text -/

/-- A beginning of a text that takes up no more bytes than the room, and of which every other one
that does is a beginning. -/
structure IsLongestFront (room : Nat) (s front : String) : Prop where
  isFront : ∃ rest, s = front ++ rest
  fits : front.utf8ByteSize ≤ room
  longest : ∀ other rest, s = other ++ rest → other.utf8ByteSize ≤ room →
    ∃ more, front = other ++ more

theorem byteLength_toList (s : String) : byteLength s.toList = s.utf8ByteSize := by
  obtain ⟨cs, rfl⟩ : ∃ cs, s = String.ofList cs := ⟨s.toList, String.ofList_toList.symm⟩
  rw [String.toList_ofList]
  induction cs with
  | nil => rfl
  | cons c cs ih =>
    have hsplit : String.ofList (c :: cs) = String.singleton c ++ String.ofList cs := by
      rw [← String.toList_inj]
      simp
    rw [hsplit, String.utf8ByteSize_append, String.utf8ByteSize_singleton, byteLength, ih]

theorem exists_append_iff : (∃ rest, s = front ++ rest) ↔ front.toList <+: s.toList := by
  constructor
  · rintro ⟨rest, rfl⟩
    rw [String.toList_append]
    exact List.prefix_append ..
  · rintro ⟨rest, hrest⟩
    refine ⟨String.ofList rest, ?_⟩
    rw [← String.toList_inj, ← hrest, String.toList_append, String.toList_ofList]

/-! ### Characters that fit -/

theorem takeBytes_isPrefix (room : Nat) (cs : List Char) : takeBytes room cs <+: cs := by
  induction cs generalizing room with
  | nil => exact List.prefix_rfl
  | cons c cs ih =>
    rw [takeBytes]
    split
    · exact List.prefix_cons_inj c |>.mpr (ih _)
    · exact List.nil_prefix

theorem byteLength_takeBytes_le (room : Nat) (cs : List Char) :
    byteLength (takeBytes room cs) ≤ room := by
  induction cs generalizing room with
  | nil => exact Nat.zero_le room
  | cons c cs ih =>
    rw [takeBytes]
    split
    · have hrest := ih (room - c.utf8Size)
      rw [byteLength]
      omega
    · exact Nat.zero_le room

/-- A beginning that fits is one of the characters that fit. -/
theorem prefix_takeBytes {start : List Char} (h : start <+: cs) (hfits : byteLength start ≤ room) :
    start <+: takeBytes room cs := by
  induction start generalizing cs room with
  | nil => exact List.nil_prefix
  | cons c start ih =>
    obtain ⟨rest, rfl⟩ := h
    rw [byteLength] at hfits
    rw [List.cons_append, takeBytes, if_pos (by omega)]
    exact List.prefix_cons_inj c |>.mpr (ih (List.prefix_append ..) (by omega))

/-- If not all characters fit then less than the bytes of one are left over. -/
theorem lt_byteLength_takeBytes (h : room < byteLength cs) :
    room < byteLength (takeBytes room cs) + 4 := by
  induction cs generalizing room with
  | nil => cases h
  | cons c cs ih =>
    rw [byteLength] at h
    rw [takeBytes]
    split
    · have hrest : room - c.utf8Size < byteLength cs := by omega
      have hshort := ih hrest
      rw [byteLength]
      omega
    · have hsize : c.utf8Size ≤ 4 := c.utf8Size_le_four
      rw [byteLength]
      omega

/-- The characters that fit are the longest beginning that does. -/
theorem isLongestFront_takeBytes (room : Nat) (s : String) :
    IsLongestFront room s (String.ofList (takeBytes room s.toList)) where
  isFront := by
    rw [exists_append_iff, String.toList_ofList]
    exact takeBytes_isPrefix room s.toList
  fits := by
    rw [← byteLength_toList, String.toList_ofList]
    exact byteLength_takeBytes_le room s.toList
  longest := by
    intro other rest hother hfits
    rw [exists_append_iff, String.toList_ofList]
    rw [← byteLength_toList] at hfits
    exact prefix_takeBytes (exists_append_iff.mp ⟨rest, hother⟩) hfits

/-! ### Cuts -/

/-- The last place up to a given one at which a character begins or the text ends, found by steps
back of one byte each. There is no step back from the first place. -/
def boundaryBefore? (s : String) : Nat → Option Nat
  | 0 => if String.Pos.Raw.isValid s ⟨0⟩ then some 0 else none
  | place + 1 =>
    if String.Pos.Raw.isValid s ⟨place + 1⟩ then some (place + 1) else boundaryBefore? s place

/-- What stands before a place, if the place is not inside of a character. -/
def front? (s : String) (place : Nat) : Option String :=
  if h : String.Pos.Raw.isValid s ⟨place⟩ then
    some (s.sliceTo (s.pos ⟨place⟩ (String.Pos.Raw.isValid_eq_true_iff.mp h))).copy
  else none

/-- A snippet that is cut from the bytes, unless a step goes wrong. -/
def snippet? (s : String) : Option String :=
  if s.utf8ByteSize ≤ snippetRoom then some s
  else do
    let place ← boundaryBefore? s snippetRoom
    let front ← front? s place
    return front ++ "..."

/-- A character begins, or the text ends, behind each of its beginnings. -/
theorem isValid_iff {place : Nat} : String.Pos.Raw.isValid s ⟨place⟩ = true ↔
    ∃ front rest, s = front ++ rest ∧ front.utf8ByteSize = place := by
  rw [String.Pos.Raw.isValid_eq_true_iff, String.Pos.Raw.isValid_iff_exists_append]
  simp only [String.Pos.Raw.ext_iff, String.byteIdx_rawEndPos, eq_comm]

/-- Steps back from the end of the room lead to the end of the longest beginning that fits. -/
theorem boundaryBefore?_eq (h : IsLongestFront room s front) :
    boundaryBefore? s room = some front.utf8ByteSize := by
  obtain ⟨rest, hfront⟩ := h.isFront
  induction room with
  | zero =>
    have hnone : front.utf8ByteSize = 0 := Nat.le_zero.mp h.fits
    rw [boundaryBefore?, if_pos (isValid_iff.mpr ⟨front, rest, hfront, hnone⟩), hnone]
  | succ room ih =>
    rw [boundaryBefore?]
    split
    · rename_i hvalid
      obtain ⟨other, after, hother, hsize⟩ := isValid_iff.mp hvalid
      obtain ⟨more, hmore⟩ := h.longest other after hother (Nat.le_of_eq hsize)
      have hle : other.utf8ByteSize ≤ front.utf8ByteSize := by
        rw [hmore, String.utf8ByteSize_append]
        exact Nat.le_add_right ..
      rw [Nat.le_antisymm h.fits (hsize ▸ hle)]
    · rename_i hvalid
      have hne : front.utf8ByteSize ≠ room + 1 :=
        fun hsize ↦ hvalid (isValid_iff.mpr ⟨front, rest, hfront, hsize⟩)
      exact ih ⟨h.isFront, Nat.le_of_lt_succ (Nat.lt_of_le_of_ne h.fits hne),
        fun other after hother hfits ↦ h.longest other after hother (Nat.le_succ_of_le hfits)⟩

/-- A beginning is taken at its own end. -/
theorem front?_append (front rest : String) :
    front? (front ++ rest) front.utf8ByteSize = some front := by
  have hvalid : String.Pos.Raw.isValid (front ++ rest) ⟨front.utf8ByteSize⟩ = true :=
    isValid_iff.mpr ⟨front, rest, rfl, rfl⟩
  rw [front?, dif_pos hvalid, Option.some.injEq]
  exact (String.Pos.splits _).eq ⟨rfl, rfl⟩ |>.1

/-- The snippet is the one that is cut from the bytes, so no step of that cut goes wrong. -/
theorem snippet?_eq (s : String) : snippet? s = some (snippet s) := by
  rw [snippet?, snippet, byteLength_toList]
  split
  · rfl
  · have hfront := isLongestFront_takeBytes snippetRoom s
    obtain ⟨rest, hrest⟩ := hfront.isFront
    have htaken := front?_append (String.ofList (takeBytes snippetRoom s.toList)) rest
    rw [← hrest] at htaken
    rw [boundaryBefore?_eq hfront]
    simp [htaken]

/-- A snippet can be cut from the bytes of every text, and no step of the cut goes wrong. It is the
text itself if that has up to 256 bytes, and else three dots behind the longest beginning that has,
which then has at least 253. -/
theorem snippets_end_between_characters (s : String) :
    snippet? s = some (snippet s) ∧
      (s.utf8ByteSize ≤ 256 → snippet s = s) ∧
      (256 < s.utf8ByteSize → ∃ front, IsLongestFront 256 s front ∧ 253 ≤ front.utf8ByteSize ∧
        snippet s = front ++ "...") := by
  refine ⟨snippet?_eq s, fun hshort ↦ ?_, fun hlong ↦ ?_⟩
  · rw [snippet, byteLength_toList]
    exact if_pos hshort
  · have hcut : snippet s = String.ofList (takeBytes 256 s.toList) ++ "..." := by
      rw [snippet, byteLength_toList]
      exact if_neg (Nat.not_le.mpr hlong)
    have hfilled : 256 < byteLength (takeBytes 256 s.toList) + 4 :=
      lt_byteLength_takeBytes (by rwa [byteLength_toList])
    refine ⟨_, isLongestFront_takeBytes 256 s, ?_, hcut⟩
    rw [← byteLength_toList, String.toList_ofList]
    omega

/-- A text whose room ends inside of a character. -/
def longBody : String := String.ofList ('x' :: List.replicate 200 'é')

/-- The snippet of a long text has 255 bytes of it, as the next character would end behind the
room. -/
theorem snippets_end_between_characters_of_long : longBody.utf8ByteSize = 401 ∧
    snippet "short" = "short" ∧
    ∃ front, IsLongestFront 256 longBody front ∧ 253 ≤ front.utf8ByteSize ∧
      snippet longBody = front ++ "..." ∧ front.utf8ByteSize = 255 := by
  have hsize : longBody.utf8ByteSize = 401 := by decide +kernel
  obtain ⟨-, hshort, -⟩ := snippets_end_between_characters "short"
  obtain ⟨-, -, hlong⟩ := snippets_end_between_characters longBody
  obtain ⟨front, hfront, hleast, hsnippet⟩ := hlong (by omega)
  have hplace : boundaryBefore? longBody 256 = some 255 := by decide +kernel
  rw [boundaryBefore?_eq hfront, Option.some.injEq] at hplace
  exact ⟨hsize, hshort (by decide +kernel), front, hfront, hleast, hsnippet, hplace⟩

end SearchClient.Text

import SearchClient.Proofs.Json.Lines
import SearchClient.Proofs.Json.Members
import SearchClient.Proofs.Program.Steps
import Mathlib.Algebra.GroupWithZero.Basic

/-!
# What a text is read as, and what is printed of it

A text of a document is read if the document is not too deep and each of its numbers has a value
(`Written.isRead_iff`). What is read keeps everything but numbers: printed again it says what the
text said, with each number as it is read and printed (`Written.printed_of_toJson`).

A document that holds no number but integers of sixty-four bits, and whose members are in order, is
the one that its compact text is read as (`parse_compact`).
-/

set_option autoImplicit false
set_option relaxedAutoImplicit false

namespace SearchClient.Json

open Text

/-! ### Readings that succeed -/

variable {room : Nat} {j : Json} {js : List Json} {ms : List (String × Json)}

theorem array_toJson {s : List Glyph} {items : List Tree} :
    (Tree.array s items .closed).toJson room = .ok j ↔
      ∃ room' js, room = room' + 1 ∧ itemsToJson room' items = .ok js ∧ j = .array js := by
  cases room with
  | zero => exact ⟨nofun, nofun⟩
  | succ room =>
    simp only [Tree.toJson, bind_eq_ok, Ending.check, Except.ok.injEq, Nat.add_right_cancel_iff]
    constructor
    · rintro ⟨js, hjs, _, -, rfl⟩
      exact ⟨room, js, rfl, hjs, rfl⟩
    · rintro ⟨_, js, rfl, hjs, rfl⟩
      exact ⟨js, hjs, (), trivial, rfl⟩

theorem object_toJson {s : List Glyph} {members : List (Quoted × Tree)} :
    (Tree.object s members .closed).toJson room = .ok j ↔
      ∃ room' ms, room = room' + 1 ∧ membersToJson room' members = .ok ms ∧ j = ofMembers ms := by
  cases room with
  | zero => exact ⟨nofun, nofun⟩
  | succ room =>
    simp only [Tree.toJson, bind_eq_ok, Ending.check, Except.ok.injEq, Nat.add_right_cancel_iff]
    constructor
    · rintro ⟨ms, hms, _, -, rfl⟩
      exact ⟨room, ms, rfl, hms, rfl⟩
    · rintro ⟨_, ms, rfl, hms, rfl⟩
      exact ⟨ms, hms, (), trivial, rfl⟩

theorem itemsToJson_cons {t : Tree} {items : List Tree} :
    itemsToJson room (t :: items) = .ok js ↔
      ∃ j js', t.toJson room = .ok j ∧ itemsToJson room items = .ok js' ∧ js = j :: js' := by
  simp only [itemsToJson, bind_eq_ok, Except.ok.injEq]
  constructor
  · rintro ⟨j, hj, js', hjs, rfl⟩
    exact ⟨j, js', hj, hjs, rfl⟩
  · rintro ⟨j, js', hj, hjs, rfl⟩
    exact ⟨j, hj, js', hjs, rfl⟩

theorem membersToJson_cons {name : SpelledString} {t : Tree} {members : List (Quoted × Tree)} :
    membersToJson room ((name.quoted, t) :: members) = .ok ms ↔
      ∃ j ms', t.toJson room = .ok j ∧ membersToJson room members = .ok ms' ∧
        ms = (name.text, j) :: ms' := by
  simp only [membersToJson, bind_eq_ok, Except.ok.injEq, SpelledString.quoted, exists_eq_left']
  constructor
  · rintro ⟨j, hj, ms', hms, rfl⟩
    exact ⟨j, ms', hj, hms, rfl⟩
  · rintro ⟨j, ms', hj, hms, rfl⟩
    exact ⟨j, hj, ms', hms, rfl⟩

mutual

/-- A document is read if it is not too deep and all its numbers have values. -/
theorem Written.isRead_iff : (w : Written) → {room : Nat} →
    ((∃ j, w.tree.toJson room = .ok j) ↔
      w.depth ≤ room ∧ ∀ n ∈ w.numerals, ∃ v, n.value = .ok v)
  | .null, _ => ⟨fun _ ↦ ⟨Nat.zero_le _, nofun⟩, fun _ ↦ ⟨_, rfl⟩⟩
  | .bool _, _ => ⟨fun _ ↦ ⟨Nat.zero_le _, nofun⟩, fun _ ↦ ⟨_, rfl⟩⟩
  | .string _, _ => ⟨fun _ ↦ ⟨Nat.zero_le _, nofun⟩, fun _ ↦ ⟨_, rfl⟩⟩
  | .number n _, room => by
    simp only [Written.tree, Tree.toJson, map_eq_ok, Written.depth, Written.numerals,
      List.forall_mem_singleton, Nat.zero_le, true_and]
    exact ⟨fun ⟨_, v, hv, _⟩ ↦ ⟨v, hv⟩, fun ⟨v, hv⟩ ↦ ⟨_, v, hv, rfl⟩⟩
  | .array items, room => by
    simp only [Written.tree, array_toJson, Written.depth, Written.numerals]
    constructor
    · rintro ⟨_, room, js, rfl, hjs, -⟩
      obtain ⟨hheight, hvalues⟩ := (itemsAreRead_iff items).mp ⟨js, hjs⟩
      exact ⟨Nat.succ_le_succ hheight, hvalues⟩
    · rintro ⟨hheight, hvalues⟩
      obtain ⟨room, rfl⟩ := Nat.exists_eq_add_of_le' hheight
      obtain ⟨js, hjs⟩ := (itemsAreRead_iff items).mpr ⟨Nat.le_add_left _ room, hvalues⟩
      exact ⟨_, _, js, rfl, hjs, rfl⟩
  | .object members, room => by
    simp only [Written.tree, object_toJson, Written.depth, Written.numerals]
    constructor
    · rintro ⟨_, room, ms, rfl, hms, -⟩
      obtain ⟨hheight, hvalues⟩ := (membersAreRead_iff members).mp ⟨ms, hms⟩
      exact ⟨Nat.succ_le_succ hheight, hvalues⟩
    · rintro ⟨hheight, hvalues⟩
      obtain ⟨room, rfl⟩ := Nat.exists_eq_add_of_le' hheight
      obtain ⟨ms, hms⟩ := (membersAreRead_iff members).mpr ⟨Nat.le_add_left _ room, hvalues⟩
      exact ⟨_, _, ms, rfl, hms, rfl⟩

theorem itemsAreRead_iff : (items : List Written) → {room : Nat} →
    ((∃ js, itemsToJson room (treesOfItems items) = .ok js) ↔
      itemsHeight items ≤ room ∧ ∀ n ∈ itemNumerals items, ∃ v, n.value = .ok v)
  | [], _ => ⟨fun _ ↦ ⟨Nat.zero_le _, nofun⟩, fun _ ↦ ⟨_, rfl⟩⟩
  | w :: items, room => by
    simp only [treesOfItems, itemsToJson_cons, itemsHeight, itemNumerals, Nat.max_le,
      List.forall_mem_append]
    constructor
    · rintro ⟨_, j, js, hj, hjs, -⟩
      obtain ⟨hdepth, hvalues⟩ := w.isRead_iff.mp ⟨j, hj⟩
      obtain ⟨hheight, hvalues'⟩ := (itemsAreRead_iff items).mp ⟨js, hjs⟩
      exact ⟨⟨hdepth, hheight⟩, hvalues, hvalues'⟩
    · rintro ⟨⟨hdepth, hheight⟩, hvalues, hvalues'⟩
      obtain ⟨j, hj⟩ := w.isRead_iff.mpr ⟨hdepth, hvalues⟩
      obtain ⟨js, hjs⟩ := (itemsAreRead_iff items).mpr ⟨hheight, hvalues'⟩
      exact ⟨_, j, js, hj, hjs, rfl⟩

theorem membersAreRead_iff : (members : List (SpelledString × Written)) → {room : Nat} →
    ((∃ ms, membersToJson room (treesOfMembers members) = .ok ms) ↔
      membersHeight members ≤ room ∧ ∀ n ∈ memberNumerals members, ∃ v, n.value = .ok v)
  | [], _ => ⟨fun _ ↦ ⟨Nat.zero_le _, nofun⟩, fun _ ↦ ⟨_, rfl⟩⟩
  | (name, w) :: members, room => by
    simp only [treesOfMembers, membersToJson_cons, membersHeight, memberNumerals, Nat.max_le,
      List.forall_mem_append]
    constructor
    · rintro ⟨_, j, ms, hj, hms, -⟩
      obtain ⟨hdepth, hvalues⟩ := w.isRead_iff.mp ⟨j, hj⟩
      obtain ⟨hheight, hvalues'⟩ := (membersAreRead_iff members).mp ⟨ms, hms⟩
      exact ⟨⟨hdepth, hheight⟩, hvalues, hvalues'⟩
    · rintro ⟨⟨hdepth, hheight⟩, hvalues, hvalues'⟩
      obtain ⟨j, hj⟩ := w.isRead_iff.mpr ⟨hdepth, hvalues⟩
      obtain ⟨ms, hms⟩ := (membersAreRead_iff members).mpr ⟨hheight, hvalues'⟩
      exact ⟨_, j, ms, hj, hms, rfl⟩

end

/-! ### Numbers of documents -/

variable {number number' : Numeral → Exact}

mutual

/-- What a document says depends on what its own numbers are taken for. -/
theorem Written.meaning_eq_of_numerals : (w : Written) →
    (∀ n ∈ w.numerals, number n = number' n) → w.meaning number = w.meaning number'
  | .null, _ | .bool _, _ | .string _, _ => rfl
  | .number n _, h => h n List.mem_cons_self
  | .array items, h => congrArg Exact.array (itemMeanings_eq_of_numerals items h)
  | .object members, h =>
    congrArg (Exact.object ∘ sortMembers) (memberMeanings_eq_of_numerals members h)

theorem itemMeanings_eq_of_numerals : (items : List Written) →
    (∀ n ∈ itemNumerals items, number n = number' n) →
    itemMeanings number items = itemMeanings number' items
  | [], _ => rfl
  | w :: items, h => by
    obtain ⟨hw, hitems⟩ := List.forall_mem_append.mp h
    rw [itemMeanings, itemMeanings, w.meaning_eq_of_numerals hw,
      itemMeanings_eq_of_numerals items hitems]

theorem memberMeanings_eq_of_numerals : (members : List (SpelledString × Written)) →
    (∀ n ∈ memberNumerals members, number n = number' n) →
    memberMeanings number members = memberMeanings number' members
  | [], _ => rfl
  | (_, w) :: members, h => by
    obtain ⟨hw, hmembers⟩ := List.forall_mem_append.mp h
    rw [memberMeanings, memberMeanings, w.meaning_eq_of_numerals hw,
      memberMeanings_eq_of_numerals members hmembers]

end

/-! ### What is printed of a text -/

/-- What a document says when it is printed. -/
def printed (j : Json) : Exact := j.written.exact

/-- What is printed of a number that has been read. -/
def Numeral.asRead (n : Numeral) : Exact :=
  match n.value with
  | .ok v => printed (.number v)
  | .error _ => .null

theorem Numeral.asRead_eq {n : Numeral} {v : Number} (h : n.value = .ok v) :
    n.asRead = printed (.number v) := by
  rw [asRead, h]

theorem memberMeanings_writtenMembers (number : Numeral → Exact) (ms : List (String × Json)) :
    memberMeanings number (writtenMembers ms) =
      ms.map fun m ↦ (m.1, m.2.written.meaning number) := by
  induction ms with
  | nil => rfl
  | cons m ms ih => rw [writtenMembers, memberMeanings, text_spell, ih, List.map_cons]

/-- An object says the same however its members were ordered, as long as of two with one name the
later counts. -/
theorem printed_ofMembers (ms : List (String × Json)) :
    printed (ofMembers ms) = .object (sortMembers (ms.map fun m ↦ (m.1, printed m.2))) := by
  rw [printed, ofMembers, written, Written.exact, Written.meaning, memberMeanings_writtenMembers]
  change Exact.object (sortMembers ((sortMembers ms).map fun m ↦ (m.1, m.2.printed))) = _
  rw [← sortMembers_map, sortMembers_of_inOrder (inOrder_sortMembers _)]

theorem rational_integerNumeral (i : Int) : (integerNumeral i).rational = i := by
  simp only [Numeral.rational, Numeral.shift, integerNumeral, Option.getD_none, List.append_nil,
    Decimal.value_digits, List.length_nil, Nat.cast_zero, sub_zero, zpow_zero, mul_one,
    decide_eq_true_eq]
  by_cases hsign : i < 0
  · have habs : -(i.natAbs : Int) = i := by omega
    rw [if_pos hsign, ← Int.cast_natCast, ← Int.cast_neg, habs]
  · have habs : (i.natAbs : Int) = i := by omega
    rw [if_neg hsign, ← Int.cast_natCast, habs]

/-- Only a numeral without point and exponent is read as an integer, and as the one it names. -/
theorem Numeral.value_integer {n : Numeral} {i : Int} (h : n.value = .ok (.integer i)) :
    n.fraction = none ∧ n.exponent = none ∧
      i = if n.negative then -(Decimal.value n.whole : Int) else Decimal.value n.whole := by
  rw [Numeral.value] at h
  obtain ⟨hinteger, h⟩ | ⟨-, h⟩ := ite_eq_iff.mp h
  · simp only [Bool.and_eq_true, Option.isNone_iff_eq_none] at hinteger
    exact ⟨hinteger.1.1, hinteger.1.2, (Number.integer.inj (Except.ok.inj h)).symm⟩
  · obtain ⟨_, -, hfloat⟩ := map_eq_ok.mp h
    cases hfloat

/-- A numeral that is read as an integer names this integer. -/
theorem Numeral.rational_of_integer {n : Numeral} {i : Int} (h : n.value = .ok (.integer i)) :
    n.rational = i := by
  obtain ⟨hfraction, hexponent, rfl⟩ := n.value_integer h
  simp only [Numeral.rational, Numeral.shift, hfraction, hexponent, Option.getD_none,
    List.append_nil, List.length_nil, Nat.cast_zero, sub_zero, zpow_zero, mul_one]
  cases n.negative <;> simp

theorem Numeral.asRead_of_integer {n : Numeral} {i : Int} (h : n.value = .ok (.integer i)) :
    n.asRead = .number n.rational := by
  rw [Numeral.asRead_eq h, n.rational_of_integer h, ← rational_integerNumeral]
  rfl
mutual

/-- What is printed of a document says what the document says, with its numbers as read. -/
theorem Written.printed_of_toJson : (w : Written) → {room : Nat} → {j : Json} →
    w.tree.toJson room = .ok j → printed j = w.meaning Numeral.asRead
  | .null, _, _, h | .bool _, _, _, h => by
    obtain rfl := Except.ok.inj h
    rfl
  | .string s, _, _, h => by
    obtain rfl := Except.ok.inj h
    exact congrArg Exact.string (text_spell s.text)
  | .number n _, _, _, h => by
    obtain ⟨v, hv, rfl⟩ := map_eq_ok.mp h
    exact (Numeral.asRead_eq hv).symm
  | .array items, _, _, h => by
    obtain ⟨room, js, rfl, hjs, rfl⟩ := array_toJson.mp h
    exact congrArg Exact.array (printedItems_of_toJson items hjs)
  | .object members, _, _, h => by
    obtain ⟨room, ms, rfl, hms, rfl⟩ := object_toJson.mp h
    rw [printed_ofMembers, printedMembers_of_toJson members hms, Written.meaning]

theorem printedItems_of_toJson : (items : List Written) → {room : Nat} → {js : List Json} →
    itemsToJson room (treesOfItems items) = .ok js →
    itemMeanings (fun n ↦ .number n.rational) (writtenItems js) = itemMeanings Numeral.asRead items
  | [], _, _, h => by
    obtain rfl := Except.ok.inj h
    rfl
  | w :: items, _, _, h => by
    obtain ⟨j, js, hj, hjs, rfl⟩ := itemsToJson_cons.mp h
    rw [writtenItems, itemMeanings, itemMeanings, printedItems_of_toJson items hjs,
      ← w.printed_of_toJson hj]
    rfl

theorem printedMembers_of_toJson : (members : List (SpelledString × Written)) → {room : Nat} →
    {ms : List (String × Json)} → membersToJson room (treesOfMembers members) = .ok ms →
    (ms.map fun m ↦ (m.1, printed m.2)) = memberMeanings Numeral.asRead members
  | [], _, _, h => by
    obtain rfl := Except.ok.inj h
    rfl
  | (name, w) :: members, _, _, h => by
    obtain ⟨j, ms, hj, hms, rfl⟩ := membersToJson_cons.mp h
    rw [List.map_cons, printedMembers_of_toJson members hms, memberMeanings, w.printed_of_toJson hj]

end

/-- A compact text says what the document says. -/
theorem denotes_compact (j : Json) : Denotes j.compact (printed j) :=
  ⟨j.written, spaced_compact j, rfl⟩

/-! ### What is read of a compact text -/

/-- A document that is read as it was printed: its numbers are integers of sixty-four bits, and its
members are in order. -/
inductive Lasting : Json → Prop where
  | null : Lasting .null
  | bool (b : Bool) : Lasting (.bool b)
  | integer {i : Int} (least : leastSigned ≤ i) (greatest : i ≤ greatestUnsigned) :
    Lasting (.number (.integer i))
  | string (s : String) : Lasting (.string s)
  | array {items : List Json} (each : ∀ item ∈ items, Lasting item) : Lasting (.array items)
  | object {members : List (String × Json)} (order : InOrder members)
    (each : ∀ m ∈ members, Lasting m.2) : Lasting (.object members)

/-- An integer of sixty-four bits is read as it was printed. -/
theorem value_integerNumeral {i : Int} (least : leastSigned ≤ i) (greatest : i ≤ greatestUnsigned) :
    (integerNumeral i).value = .ok (.integer i) := by
  rw [Numeral.value]
  simp only [integerNumeral, Decimal.value_digits, Option.isNone_none, Bool.true_and,
    decide_eq_true_eq]
  by_cases hsign : i < 0
  · have habs : -(i.natAbs : Int) = i := by omega
    have hpos : 0 < i.natAbs := by omega
    rw [if_pos hsign, if_pos hsign, habs, decide_eq_true hpos, decide_eq_true least]
    rfl
  · have habs : (i.natAbs : Int) = i := by omega
    have hle : i.natAbs ≤ greatestUnsigned := by omega
    rw [if_neg hsign, if_neg hsign, habs, decide_eq_true hle]
    rfl

mutual

theorem toJson_written : (j : Json) → Lasting j → {room : Nat} → j.depth ≤ room →
    j.written.tree.toJson room = .ok j
  | .null, _, _, _ | .bool _, _, _, _ => rfl
  | .string s, _, _, _ => congrArg (Except.ok ∘ Json.string) (text_spell s)
  | .number (.integer i), h, _, _ => by
    cases h with
    | integer least greatest =>
      rw [written, Number.written, Written.tree, Tree.toJson, value_integerNumeral least greatest]
      rfl
  | .array items, h, room, hdepth => by
    cases h with
    | array each =>
      obtain ⟨room, rfl⟩ := Nat.exists_eq_add_of_le' hdepth
      have hitems := itemsToJson_written items each (Nat.le_add_left _ room)
      exact array_toJson.mpr ⟨_, items, rfl, hitems, rfl⟩
  | .object members, h, room, hdepth => by
    cases h with
    | object order each =>
      obtain ⟨room, rfl⟩ := Nat.exists_eq_add_of_le' hdepth
      have hmembers := membersToJson_written members each (Nat.le_add_left _ room)
      refine object_toJson.mpr ⟨_, members, rfl, hmembers, ?_⟩
      rw [ofMembers, sortMembers_of_inOrder order]

theorem itemsToJson_written : (items : List Json) → (∀ item ∈ items, Lasting item) → {room : Nat} →
    itemsDepth items ≤ room → itemsToJson room (treesOfItems (writtenItems items)) = .ok items
  | [], _, _, _ => rfl
  | item :: items, h, room, hdepth => by
    obtain ⟨hitem, hitems⟩ := List.forall_mem_cons.mp h
    obtain ⟨hdepth, hheight⟩ := Nat.max_le.mp hdepth
    exact itemsToJson_cons.mpr ⟨item, items, toJson_written item hitem hdepth,
      itemsToJson_written items hitems hheight, rfl⟩

theorem membersToJson_written : (members : List (String × Json)) → (∀ m ∈ members, Lasting m.2) →
    {room : Nat} → membersDepth members ≤ room →
    membersToJson room (treesOfMembers (writtenMembers members)) = .ok members
  | [], _, _, _ => rfl
  | (name, value) :: members, h, room, hdepth => by
    obtain ⟨hvalue, hmembers⟩ := List.forall_mem_cons.mp h
    obtain ⟨hdepth, hheight⟩ := Nat.max_le.mp hdepth
    refine membersToJson_cons.mpr ⟨value, members, toJson_written value hvalue hdepth,
      membersToJson_written members hmembers hheight, ?_⟩
    rw [text_spell]

end

/-- The compact text of a document is read as the document. -/
theorem parse_compact {j : Json} (h : Lasting j) (hdepth : j.depth ≤ depthLimit) :
    parse j.compact = .ok j := by
  rw [parse_written (spaced_compact j), toJson_written j h hdepth]

end SearchClient.Json

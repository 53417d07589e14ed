import SearchClient.Json.Tree

/-!
# Records

A record is read from an object by the names of its members, or from an array by position. Its slots
say which names they go by, how their values are read, and what stands for a value that is missing.
The members of an object are read in the order of the text, so the first fault on the way is the
answer; a name that comes twice is a fault at its second place, before its value is looked at. A
record either keeps the members it has no slot for (then it cannot be read from an array) or passes
over them.
-/

set_option autoImplicit false
set_option relaxedAutoImplicit false

namespace SearchClient.Json

/-- What stands for a value that is missing. -/
inductive Missing (α : Type) where
  /-- Nothing: the record cannot be read. -/
  | required
  /-- A value, where an object lacks the member; an array has to have the item. -/
  | inObject (value : α)
  /-- A value, in objects and arrays alike. -/
  | always (value : α)

/-- One place of a record. -/
structure Slot (α : Type) where
  name : String
  aliases : List String := []
  read : Tree → Except Fault α
  missing : Missing α

/-- Whether a slot goes by a name. -/
def Slot.hasName {α : Type} (slot : Slot α) (name : String) : Bool :=
  slot.name == name || slot.aliases.contains name

/-- The fault of a tree that is not of the shape asked for: that of its own spelling, if it has one,
and otherwise the mismatch. -/
def Tree.misfit : Tree → Fault
  | .number _ (.error fault) => fault
  | .string ⟨_, .error fault⟩ => fault
  | .broken b => b.read
  | _ => .mismatch

/-- The members of an object: the values read for slots, by slot name, and the members kept, in the
order of the text. -/
structure Members (α : Type) where
  values : List (String × α)
  rest : List (String × Json)

/-- The members of an object, read in order. Names of slots that have been read are in `seen`. -/
def readMembers {α : Type} (room : Nat) (slots : List (Slot α)) (keepsRest : Bool) :
    (seen : List String) → List (Quoted × Tree) → Except Fault (Members α)
  | _, [] => .ok ⟨[], []⟩
  | seen, (key, t) :: members => do
    let name ← key.content
    match slots.find? (·.hasName name) with
    | some slot =>
      if seen.contains slot.name then .error .mismatch
      else
        let value ← slot.read t
        let found ← readMembers room slots keepsRest (slot.name :: seen) members
        .ok { found with values := (slot.name, value) :: found.values }
    | none =>
      if keepsRest then
        let value ← t.toJson room
        let found ← readMembers room slots keepsRest seen members
        .ok { found with rest := (name, value) :: found.rest }
      else
        t.skip
        readMembers room slots keepsRest seen members

/-- The values of the slots of an object, in the order of the slots. -/
def fillSlots {α : Type} (values : List (String × α)) : List (Slot α) → Except Fault (List α)
  | [] => .ok []
  | slot :: slots => do
    let value ←
      match values.find? (·.1 == slot.name), slot.missing with
      | some (_, value), _ => Except.ok value
      | none, .inObject value => Except.ok value
      | none, .always value => Except.ok value
      | none, .required => Except.error Fault.mismatch
    let rest ← fillSlots values slots
    .ok (value :: rest)

/-- The values of the slots of an array, by position. -/
def fillItems {α : Type} (ending : Ending) : List (Slot α) → List Tree → Except Fault (List α)
  | [], [] => do
    ending.check
    .ok []
  | [], _ :: _ => .error .malformed
  | slot :: slots, t :: items => do
    let value ← slot.read t
    let rest ← fillItems ending slots items
    .ok (value :: rest)
  | slot :: slots, [] => do
    ending.check
    match slot.missing with
    | .always value =>
      let rest ← fillItems ending slots []
      .ok (value :: rest)
    | _ => .error .mismatch

/-- A record: the values of its slots, and the members without a slot in the order of their names if
it keeps them. -/
def readRecord {α : Type} (room : Nat) (slots : Nat → List (Slot α)) (keepsRest : Bool) :
    Tree → Except Fault (List α × List (String × Json))
  | .object _ members ending =>
    match room with
    | 0 => .error .malformed
    | room + 1 => do
      let found ← readMembers room (slots room) keepsRest [] members
      ending.check
      let values ← fillSlots found.values (slots room)
      .ok (values, sortMembers found.rest)
  | .array spelling items ending =>
    if keepsRest then .error (Tree.array spelling items ending).misfit
    else
      match room with
      | 0 => .error .malformed
      | room + 1 => do
        let values ← fillItems ending (slots room) items
        .ok (values, [])
  | t => .error t.misfit

/-! ### Values -/

/-- A text. -/
def Tree.readText : Tree → Except Fault String
  | .string s => s.content
  | t => .error t.misfit

/-- A truth value. -/
def Tree.readBool : Tree → Except Fault Bool
  | .bool b => .ok b
  | t => .error t.misfit

/-- An integer within bounds. -/
def Tree.readInteger (least greatest : Int) : Tree → Except Fault Int
  | .number _ (.ok (.integer i)) => if least ≤ i ∧ i ≤ greatest then .ok i else .error .mismatch
  | t => .error t.misfit

/-- A number. -/
def Tree.readFloat : Tree → Except Fault Binary64
  | .number _ (.ok n) => .ok n.toBinary64
  | t => .error t.misfit

/-- A value that null stands for the lack of. -/
def Tree.readOptional {α : Type} (read : Tree → Except Fault α) : Tree → Except Fault (Option α)
  | .null => .ok none
  | t => (read t).map some

/-- The items of an array, each read in the same way. -/
def readItems {α : Type} (read : Tree → Except Fault α) : List Tree → Except Fault (List α)
  | [] => .ok []
  | t :: items => do
    let value ← read t
    let rest ← readItems read items
    .ok (value :: rest)

/-- A list. -/
def Tree.readList {α : Type} (room : Nat) (read : Nat → Tree → Except Fault α) :
    Tree → Except Fault (List α)
  | .array _ items ending =>
    match room with
    | 0 => .error .malformed
    | room + 1 => do
      let values ← readItems (read room) items
      ending.check
      .ok values
  | t => .error t.misfit

/-- The members of an object, each value read in the same way. -/
def readValues {α : Type} (read : Tree → Except Fault α) :
    List (Quoted × Tree) → Except Fault (List (String × α))
  | [] => .ok []
  | (key, t) :: members => do
    let name ← key.content
    let value ← read t
    let rest ← readValues read members
    .ok ((name, value) :: rest)

/-- A map, in the order of its keys. -/
def Tree.readMap {α : Type} (room : Nat) (read : Nat → Tree → Except Fault α) :
    Tree → Except Fault (List (String × α))
  | .object _ members ending =>
    match room with
    | 0 => .error .malformed
    | room + 1 => do
      let values ← readValues (read room) members
      ending.check
      .ok (sortMembers values)
  | t => .error t.misfit

/-- One of a set of names: a text, or an object with null under the name. What is neither is not
even looked at. -/
def Tree.readName (names : List String) : Tree → Except Fault String
  | .string s => do
    let name ← s.content
    if names.contains name then .ok name else .error .mismatch
  | .object _ [(key, t)] ending => do
    let name ← key.content
    if names.contains name then
      match t with
      | .null =>
        ending.check
        .ok name
      | t => .error t.misfit
    else .error .mismatch
  | .object _ ((key, t) :: _) _ => do
    let name ← key.content
    if names.contains name then
      match t with
      | .null => .error .malformed
      | t => .error t.misfit
    else .error .mismatch
  | .object _ [] (.broken b) => .error b.read
  | .broken b => .error b.read
  | _ => .error .malformed

end SearchClient.Json

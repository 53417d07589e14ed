import SearchClient.Calendar.Moment
import SearchClient.Document.Basic
import SearchClient.ServerError.Cause

/-!
# Shapes of answers

A shape says what an answer of the cluster looks like, and `Shape.read` reads a body of that shape.
A record's fields have names, other names they go by, shapes, and rules for values that are missing
and for values that are left out when the record is written again.
-/

set_option autoImplicit false
set_option relaxedAutoImplicit false

namespace SearchClient

open Json

/-- What stands for a field that a record lacks. -/
inductive Absent where
  /-- The record cannot be read without it, unless null may stand for it. -/
  | required
  /-- The value that says nothing: zero, an empty text or list, no value. -/
  | blank
  | value (v : Json)
  deriving Repr, Inhabited

/-- When a field is left out of the written record. -/
inductive LeftOut where
  | never
  | whenNull
  | whenEmpty
  deriving DecidableEq, Repr, Inhabited

/-- The name of a field and its rules. -/
structure FieldName where
  name : String
  aliases : List String := []
  absent : Absent := .blank
  leftOut : LeftOut := .never
  deriving Repr, Inhabited

/-- The shape of a value. -/
inductive Shape where
  | text
  | boolean
  | integer (least greatest : Int)
  | float
  | any
  /-- A value kept as it is spelled. -/
  | spelled
  | moment (form : Moment.Form)
  | oneOf (names : List String)
  | cause
  | shardFailure
  | optional (shape : Shape)
  | list (shape : Shape)
  | map (shape : Shape)
  /-- An object with one member, whose name says which of several shapes its value has. -/
  | choice (variants : List (String × Shape))
  /-- A record, which may keep the members that are no fields. -/
  | record (keepsRest : Bool) (fields : List (FieldName × Shape))
  deriving Inhabited

namespace Shape

/-- The whole numbers of sixty-four bits without a sign. -/
def count : Shape := .integer 0 greatestUnsigned

/-- The integers of sixty-four bits. -/
def signed : Shape := .integer leastSigned greatestSigned

mutual

/-- The value that says nothing. -/
def blank : Shape → Document
  | .text => .json (.string "")
  | .boolean => .json (.bool false)
  | .integer .. => .json (.integer 0)
  | .float => .json (.number (.float (.zero false)))
  | .list _ => .list []
  | .map _ => .record []
  | .cause => .json (.object [])
  | .record _ fields => .record (blankFields fields)
  | _ => .null

/-- The fields of a record that says nothing, less those that are left out. -/
def blankFields : List (FieldName × Shape) → List (String × Document)
  | [] => []
  | (field, shape) :: fields =>
    let value := blank shape
    match field.leftOut with
    | .never => (field.name, value) :: blankFields fields
    | _ => blankFields fields

end

/-- A field in its record, unless it is left out. -/
def writeField (field : FieldName) (value : Document) : List (String × Document) :=
  let omitted :=
    match field.leftOut with
    | .never => false
    | .whenNull => value.isNull
    | .whenEmpty => value.isEmpty
  if omitted then [] else [(field.name, value)]

/-- What stands for a missing field of a shape. -/
def missing (field : FieldName) (shape : Shape) : Missing Document :=
  match field.absent, shape with
  | .required, .optional _ => .inObject .null
  | .required, _ => .required
  | .blank, shape => .always (blank shape)
  | .value v, _ => .always (.json v)

/-- A moment, or the mismatch. -/
def readMoment (form : Moment.Form) (t : Tree) : Except Fault Document :=
  match t with
  | .array .. | .object .. => .error .mismatch
  | t => do
    match Moment.ofJson (← t.toJson 0) with
    | .ok m => .ok (.moment form m)
    | .error _ => .error .mismatch

mutual

/-- The value of a tree that has a shape, entering at most `room` containers. -/
def readTree (shape : Shape) (room : Nat) (t : Tree) : Except Fault Document :=
  match shape with
  | .text => t.readText.map fun s ↦ .json (.string s)
  | .boolean => t.readBool.map fun b ↦ .json (.bool b)
  | .integer least greatest => (t.readInteger least greatest).map fun i ↦ .json (.integer i)
  | .float => t.readFloat.map fun x ↦ .json (.number (.float x))
  | .any => (t.toJson room).map .json
  | .spelled => t.raw.map .source
  | .moment form => readMoment form t
  | .oneOf names => (t.readName names).map fun s ↦ .json (.string s)
  | .cause => (ErrorCause.read room t).map fun c ↦ .json c.toJson
  | .shardFailure =>
    (ErrorCause.readShardFailure room t).map fun f ↦ .json (ErrorCause.failureToJson f)
  | .optional shape => (t.readOptional (shape.readTree room)).map fun v ↦ v.getD .null
  | .list shape => (t.readList room shape.readTree).map .list
  | .map shape => (t.readMap room shape.readTree).map .record
  | .choice variants =>
    match t with
    | .object _ ((key, value) :: members) ending =>
      match room with
      | 0 => .error .malformed
      | room + 1 => do
        let name ← key.content
        let value ← readVariant variants room name value
        match members with
        | [] =>
          ending.check
          .ok (.record [(name, value)])
        | _ :: _ => .error .malformed
    | .broken b => .error b.read
    | .string s => do
      let _ ← s.content
      .error .mismatch
    | _ => .error .malformed
  | .record keepsRest fields => do
    let (values, rest) ← readRecord room (slots fields) keepsRest t
    .ok (.record (values.flatten ++ rest.map fun (name, value) ↦ (name, .json value)))

/-- The value under the name of one of several shapes. -/
def readVariant (variants : List (String × Shape)) (room : Nat) (name : String) (t : Tree) :
    Except Fault Document :=
  match variants with
  | [] => .error .mismatch
  | (variant, shape) :: variants =>
    if variant = name then shape.readTree room t else readVariant variants room name t

/-- The slots of a record. A value stands there as the written field, if it is written. -/
def slots (fields : List (FieldName × Shape)) (room : Nat) :
    List (Slot (List (String × Document))) :=
  match fields with
  | [] => []
  | (field, shape) :: fields =>
    let slot : Slot (List (String × Document)) :=
      { name := field.name
        aliases := field.aliases
        read := fun t ↦ (shape.readTree room t).map (writeField field)
        missing :=
          match missing field shape with
          | .required => .required
          | .inObject v => .inObject (writeField field v)
          | .always v => .always (writeField field v) }
    slot :: slots fields room

end

/-- The document that a body of this shape holds. -/
def read (shape : Shape) (body : Text.Bytes) : Except Fault Document :=
  (Source.ofBytes body).read (shape.readTree depthLimit)

/-- The document that a text of this shape holds. -/
def readString (shape : Shape) (text : String) : Except Fault Document :=
  (Source.ofString text).read (shape.readTree depthLimit)

/-- The document that a plain document of this shape gives, however deep it is. -/
def ofJson (shape : Shape) (j : Json) : Except Fault Document :=
  shape.readTree j.depth j.toTree

/-! ### Fields -/

/-- A field that may be missing; the value that says nothing stands for it. -/
def field (name : String) (shape : Shape) : FieldName × Shape := ({ name := name }, shape)

/-- A field that has to be there. -/
def need (name : String) (shape : Shape) : FieldName × Shape :=
  ({ name := name, absent := .required }, shape)

/-- A field that may be missing or null. -/
def maybe (name : String) (shape : Shape) : FieldName × Shape := field name (.optional shape)

/-- A field that may be missing or null, and is then not written. -/
def orNothing (name : String) (shape : Shape) : FieldName × Shape :=
  ({ name := name, leftOut := .whenNull }, .optional shape)

/-- A field that is not written when it is empty. -/
def unlessEmpty (name : String) (shape : Shape) : FieldName × Shape :=
  ({ name := name, leftOut := .whenEmpty }, shape)

/-- A record of these fields and no more. -/
def fields (fields : List (FieldName × Shape)) : Shape := .record false fields

/-- A record of these fields that keeps all other members. -/
def openFields (fields : List (FieldName × Shape)) : Shape := .record true fields

end Shape

end SearchClient

import SearchClient.Json.Basic

/-!
# Tables of a TOML text

A table is defined once: by its header, by the header of a table below it, or by keys with dots in
them. `Table.put` adds the value of such a key, and `Table.openTable` and `Table.openItem` the table
of a header; each refuses what would define a table or a value a second time.
-/

set_option autoImplicit false
set_option relaxedAutoImplicit false

namespace SearchClient.Toml

/-- How a table came to be: by its own header, by that of a table below it, or by a dotted key. -/
inductive Origin where
  | header
  | implied
  | dotted
  deriving DecidableEq, Repr, Inhabited

/-- What stands under a key. -/
inductive Entry where
  | value (v : Json)
  | table (origin : Origin) (members : List (String × Entry))
  | tables (items : List (List (String × Entry)))
  deriving Repr, Inhabited

/-- A table: entries under keys. -/
abbrev Table := List (String × Entry)

namespace Table

/-- The entry of a key. -/
def find? (t : Table) (key : String) : Option Entry := (List.find? (·.1 == key) t).map (·.2)

/-- The table with an entry under a key. -/
def replace (t : Table) (key : String) (e : Entry) : Table :=
  if t.any (·.1 == key) then t.map fun (k, old) ↦ if k = key then (k, e) else (k, old)
  else t ++ [(key, e)]

/-- The table with a change made to the last table of a row. -/
def changeLast (f : Table → Option Table) : List Table → Option (List Table)
  | [] => none
  | [last] => (f last).map ([·])
  | t :: ts => (changeLast f ts).map (t :: ·)

/-- A change made below a path of headers. Tables on the way that are not there come to be. -/
def below (f : Table → Option Table) : List String → Table → Option Table
  | [], t => f t
  | key :: path, t =>
    match find? t key with
    | none => (below f path []).map fun sub ↦ replace t key (.table .implied sub)
    | some (.value _) => none
    | some (.table origin sub) =>
      (below f path sub).map fun sub ↦ replace t key (.table origin sub)
    | some (.tables items) =>
      (changeLast (below f path) items).map fun items ↦ replace t key (.tables items)

/-- A value put under a key that has none. -/
def insertNew (t : Table) (key : String) (v : Json) : Option Table :=
  if (find? t key).isSome then none else some (replace t key (.value v))

/-- A value put below dotted keys, the last of which opened the table when `dotted` is set. A table
with a header of its own is not entered. -/
def putBelow (dotted : Bool) (v : Json) : List String → String → Table → Option Table
  | [], key, t => if dotted then insertNew t key v else none
  | part :: path, key, t =>
    match find? t part with
    | none => (putBelow true v path key []).map fun sub ↦ replace t part (.table .dotted sub)
    | some (.value _) => none
    | some (.table origin sub) =>
      if origin = .header then none
      else
        (putBelow (origin == .dotted) v path key sub).map fun sub ↦
          replace t part (.table origin sub)
    | some (.tables items) =>
      (changeLast (putBelow false v path key) items).map fun items ↦
        replace t part (.tables items)

/-- The value of a key that may have dots in it. -/
def put (path : List String) (key : String) (v : Json) (t : Table) : Option Table :=
  putBelow true v path key t

/-- The table of a header. -/
def openTable (key : String) (t : Table) : Option Table :=
  match find? t key with
  | none => some (replace t key (.table .header []))
  | some (.table .implied sub) => some (replace t key (.table .header sub))
  | some _ => none

/-- One more table in a row of tables. -/
def openItem (key : String) (t : Table) : Option Table :=
  match find? t key with
  | none => some (replace t key (.tables [[]]))
  | some (.tables items) => some (replace t key (.tables (items ++ [[]])))
  | some _ => none

end Table

mutual

/-- An entry as a document. -/
def Entry.toJson : Entry → Json
  | .value v => v
  | .table _ members => Json.ofMembers (membersToJson members)
  | .tables items => .array (tablesToJson items)

/-- The members of a table as documents. -/
def membersToJson : List (String × Entry) → List (String × Json)
  | [] => []
  | (key, e) :: rest => (key, e.toJson) :: membersToJson rest

/-- Tables in a row as documents. -/
def tablesToJson : List (List (String × Entry)) → List Json
  | [] => []
  | members :: rest => Json.ofMembers (membersToJson members) :: tablesToJson rest

end

/-- A table as a document. -/
def Table.toJson (t : Table) : Json := Json.ofMembers (membersToJson t)

end SearchClient.Toml

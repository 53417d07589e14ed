import SearchClient.Config.Literal
import SearchClient.Text.Split

/-!
# Configuration in the environment

Variables whose names begin with `OSC_` configure the client. What follows in the name, in small
letters, is the name of a setting; a setting of a section stands behind the name of the section and
two lines below. Documents from several sources are laid one over the other: of two values the later
one counts, and of two dictionaries every member (`overlay`).
-/

set_option autoImplicit false
set_option relaxedAutoImplicit false

namespace SearchClient

/-- The names and texts of environment variables. -/
abbrev Environment := List (String × String)

mutual

/-- A document laid over another. -/
def Json.overlay (under : Json) : Json → Json
  | .object members =>
    match under with
    | .object old => .object (overlayMembers old members)
    | _ => .object members
  | value => value

/-- Members laid over others. -/
def overlayMembers (under : List (String × Json)) : List (String × Json) → List (String × Json)
  | [] => under
  | (key, value) :: rest =>
    let value :=
      match under.find? (·.1 == key) with
      | some (_, old) => Json.overlay old value
      | none => value
    overlayMembers (Json.insertMember key value under) rest

end

namespace Environment

/-- What the names of all variables that count begin with. -/
def start : List Char := "osc_".toList

/-- The parts of a name that two lines below stand between; a full stop does as well. -/
def parts (fuel : Nat) (cs : List Char) : List (List Char) :=
  match fuel, cs with
  | 0, cs => [cs]
  | _, [] => [[]]
  | fuel + 1, '_' :: '_' :: rest => [] :: parts fuel rest
  | fuel + 1, '.' :: rest => [] :: parts fuel rest
  | fuel + 1, c :: rest =>
    match parts fuel rest with
    | [] => [[c]]
    | part :: others => (c :: part) :: others

/-- The path of the setting that a variable is about, if it is about one. -/
def settingPath? (name : String) : Option (List String) := do
  let key ← Text.dropPrefix? start ((Text.trim name.toList).map Char.toLower)
  let path := parts (key.length + 1) (Text.trim key)
  if path.any List.isEmpty then none else some (path.map String.ofList)

/-- A value below a path. -/
def nest (v : Json) : List String → Json
  | [] => v
  | key :: path => .object [(key, nest v path)]

/-- What the environment configures. -/
def document (env : Environment) : Json :=
  env.foldl (fun document (name, text) ↦
    match settingPath? name with
    | some path => document.overlay (nest (Literal.read text) path)
    | none => document) (.object [])

end Environment

end SearchClient

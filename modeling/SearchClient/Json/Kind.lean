import SearchClient.Json.Basic
import SearchClient.Number.Shortest

/-!
# What a document is, in words

Messages about a document of the wrong kind name the kind and, for a scalar, its value.
-/

set_option autoImplicit false
set_option relaxedAutoImplicit false

namespace SearchClient.Json

/-- The kind of a document, with the value of a scalar. -/
def kindText : Json → String
  | .null => "null"
  | .bool b => "boolean `" ++ (if b then "true" else "false") ++ "`"
  | .number (.integer i) => "integer `" ++ String.ofList (Decimal.writeInt i) ++ "`"
  | .number (.float x) => "floating point `" ++ String.ofList x.json ++ "`"
  | .string s => "string \"" ++ s ++ "\""
  | .array _ => "sequence"
  | .object _ => "map"

/-- The message about a document of the wrong kind. -/
def wrongKind (found : Json) (expected : String) : String :=
  "invalid type: " ++ found.kindText ++ ", expected " ++ expected

end SearchClient.Json

import SearchClient.Json.Printer
import SearchClient.Json.Record
import SearchClient.Text.Utf8

/-!
# Bodies of requests

A body is a document, a row of documents one a line, or bytes of a stated type.
-/

set_option autoImplicit false
set_option relaxedAutoImplicit false

namespace SearchClient

inductive RequestBody where
  | document (text : String)
  | lines (text : String)
  | bytes (content : Text.Bytes) (contentType : String)
  deriving DecidableEq, Repr, Inhabited

namespace RequestBody

/-- The body that holds a document. -/
def ofJson (j : Json) : RequestBody := .document j.compact

/-- Keys of a written object are texts, so a value with other keys cannot be written. -/
def keyedByOther : Except Json.Fault RequestBody := .error .malformed

def contentType : RequestBody → String
  | .document _ => "application/json"
  | .lines _ => "application/x-ndjson"
  | .bytes _ contentType => contentType

def content : RequestBody → Text.Bytes
  | .document text | .lines text => Text.Utf8.encode text
  | .bytes content _ => content

end RequestBody

end SearchClient

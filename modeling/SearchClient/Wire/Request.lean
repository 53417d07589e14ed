import SearchClient.Cluster.Http
import SearchClient.Gzip.Basic
import SearchClient.Text.Base64

/-!
# Messages as bytes

A message to a node is a line with its method and target, its headers a line each, an empty line,
and the content.
-/

set_option autoImplicit false
set_option relaxedAutoImplicit false

namespace SearchClient.Wire

/-- What a message asks for, as a node sees it. -/
def target (url : Url) : String :=
  url.pathText ++ ((url.query.map fun query ↦ "?" ++ query).getD "")

/-- Host and port as a header tells them. -/
def host (url : Url) : String :=
  let bare (a : Url.Authority) : Url.Authority := { a with username := "", password := none }
  (url.authority.map fun a ↦ (bare a).text).getD ""

/-- The value of the header that tells who asks. -/
def authorization : Credentials → String
  | .apiKey key => "ApiKey " ++ key
  | .basic username password =>
    let both := Text.Utf8.encode (username ++ ":" ++ password.getD "")
    "Basic " ++ String.ofList (Text.Base64.encode both)

/-- The content of a message as it goes out. -/
def contentOf (m : Message) : Text.Bytes :=
  match m.payload with
  | none => []
  | some p => if p.compressed then Gzip.compress p.content else p.content

/-- The header about the length of the content. It is left out where nobody expects a content. -/
def lengthHeader (m : Message) : List (String × String) :=
  if m.payload.isNone ∧ (m.method = .get ∨ m.method = .head) then []
  else [("content-length", toString (contentOf m).length)]

/-- The headers of a message. What it does not say itself is filled in. -/
def headers (m : Message) : Headers :=
  let usual : Headers :=
    [("host", host m.url), ("user-agent", Http.userAgent), ("accept", "*/*"),
      ("connection", "close")]
  let given : Headers :=
    m.headers ++ (m.credentials.map fun c ↦ ("authorization", authorization c)).toList ++
      lengthHeader m
  usual.filter (fun (name, _) ↦ !given.any (·.1 == name)) ++ given

/-- The message as it goes out. -/
def encode (m : Message) : Text.Bytes :=
  let first := m.method.name ++ " " ++ target m.url ++ " HTTP/1.1\r\n"
  let lines := (headers m).map fun (name, value) ↦ name ++ ": " ++ value ++ "\r\n"
  Text.Utf8.encode (first ++ String.join lines ++ "\r\n") ++ contentOf m

end SearchClient.Wire

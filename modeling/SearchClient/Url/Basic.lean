import SearchClient.Url.Address
import SearchClient.Url.Domain

/-!
# Uniform resource locators

A locator names a scheme, usually a host with a port and perhaps a user, a path, a query and a
fragment. Schemes of the web have hosts and default ports, and their paths are never empty.
-/

set_option autoImplicit false
set_option relaxedAutoImplicit false

namespace SearchClient

/-- Where a locator points to. -/
inductive Url.Host where
  | name (s : String)
  | address32 (address : Nat)
  | address128 (groups : List Nat)
  deriving DecidableEq, Repr, Inhabited

/-- The part between the two slashes and the path. The default port of a scheme is not kept. -/
structure Url.Authority where
  username : String := ""
  password : Option String := none
  host : Url.Host
  port : Option Nat := none
  deriving DecidableEq, Repr, Inhabited

/-- A path of segments, or one text in a locator without any slash after its scheme. -/
inductive Url.Path where
  | plain (text : String)
  | segments (items : List String)
  deriving DecidableEq, Repr, Inhabited

structure Url where
  scheme : String
  authority : Option Url.Authority := none
  path : Url.Path
  query : Option String := none
  fragment : Option String := none
  deriving DecidableEq, Repr, Inhabited

namespace Url

/-- The default port of a scheme. -/
def defaultPort? (scheme : String) : Option Nat :=
  match scheme with
  | "http" | "ws" => some 80
  | "https" | "wss" => some 443
  | "ftp" => some 21
  | _ => none

/-- The schemes whose locators always have a host; files may have one. -/
def isWebScheme (scheme : String) : Bool :=
  scheme == "file" || (defaultPort? scheme).isSome

def isWeb (url : Url) : Bool := isWebScheme url.scheme

def Host.text : Host → String
  | .name s => s
  | .address32 address => String.ofList (Address.write32 address)
  | .address128 groups => "[" ++ String.ofList (Address.write128 groups) ++ "]"

/-- The port that is meant. -/
def effectivePort? (url : Url) : Option Nat :=
  (url.authority.bind (·.port)).or (defaultPort? url.scheme)

/-- The host as text, empty if there is none. -/
def hostText (url : Url) : String :=
  (url.authority.map (·.host.text)).getD ""

def Path.text : Path → String
  | .plain text => text
  | .segments items => String.join (items.map ("/" ++ ·))

def Authority.text (a : Authority) : String :=
  let password := (a.password.map (":" ++ ·)).getD ""
  let user := a.username ++ password
  let user := if user = "" then "" else user ++ "@"
  let port := (a.port.map fun p ↦ ":" ++ String.ofList (Decimal.digits p)).getD ""
  user ++ a.host.text ++ port

/-- The path as it follows the authority. Without one, a path that begins with two slashes is told
apart by a dot in front. -/
def pathText (url : Url) : String :=
  match url.authority, url.path with
  | none, .segments ("" :: next :: rest) => "/." ++ (Path.segments ("" :: next :: rest)).text
  | _, path => path.text

/-- The locator as text. -/
def text (url : Url) : String :=
  let authority := (url.authority.map fun a ↦ "//" ++ a.text).getD ""
  let query := (url.query.map ("?" ++ ·)).getD ""
  let fragment := (url.fragment.map ("#" ++ ·)).getD ""
  url.scheme ++ ":" ++ authority ++ url.pathText ++ query ++ fragment

/-- Host and port, by which a node is told from others. -/
def endpoint (url : Url) : String :=
  url.hostText ++ ":" ++ String.ofList (Decimal.digits (url.effectivePort?.getD 0))

/-! ### Characters that are encoded -/

/-- The characters that a fragment encodes. -/
def fragmentSet (c : Char) : Bool :=
  Text.Percent.control c || " \"<>".toList.contains c || c.toNat == 96

/-- The characters that a path encodes. -/
def pathSet (c : Char) : Bool :=
  fragmentSet c || ['#', '?', '{', '}'].contains c

/-- The characters that a user's name encodes. -/
def userSet (c : Char) : Bool :=
  pathSet c || "/:;=@[\\]^|".toList.contains c

/-- The characters that a segment encodes when it is a value of its own. -/
def segmentSet (web : Bool) (c : Char) : Bool :=
  pathSet c || c == '/' || c == '%' || (web && c == '\\')

/-- The characters that a query encodes. -/
def querySet (web : Bool) (c : Char) : Bool :=
  Text.Percent.control c || " \"#<>".toList.contains c || (web && c.toNat == 39)

/-- What a locator's text never holds: tabs and line breaks are passed over wherever they stand. -/
def isSkipped (c : Char) : Bool := c == '\t' || c == '\n' || c == '\r'

/-! ### Paths of segments -/

/-- A segment that stands for the one it is in. -/
def isDot (segment : List Char) : Bool :=
  segment = ['.'] || segment.map Char.toLower = "%2e".toList

/-- A segment that stands for the one above. -/
def isDotDot (segment : List Char) : Bool :=
  ["..", ".%2e", "%2e.", "%2e%2e"].any fun s ↦ segment.map Char.toLower = s.toList

/-- A segment is entered below others. The last segment of a path that goes nowhere or up leaves an
empty one behind. -/
def enter (done : List String) (segment : List Char) (last : Bool) : List String :=
  if isDotDot segment then
    let up := done.dropLast
    if last then up ++ [""] else up
  else if isDot segment then if last then done ++ [""] else done
  else done ++ [String.ofList segment]

/-- Segments are entered one below the other. -/
def enterAll (done : List String) : List (List Char) → List String
  | [] => done
  | [segment] => enter done segment true
  | segment :: segments => enterAll (enter done segment false) segments

/-- The segments of a path's text after its first slash. -/
def readSegments (web : Bool) (cs : List Char) : List String :=
  let cs := if web then cs.map fun c ↦ if c = '\\' then '/' else c else cs
  enterAll [] ((Text.split '/' cs).map (Text.Percent.encode pathSet))

end Url

end SearchClient

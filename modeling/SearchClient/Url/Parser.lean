import SearchClient.Url.Basic

/-!
# Reading locators

`Url.parse` reads a text as a locator that stands on its own, or says what is wrong with it. How the
name of a host is spelled in ASCII is given (`Domain.Spelling`).
-/

set_option autoImplicit false
set_option relaxedAutoImplicit false

namespace SearchClient.Url

/-- Why a text is no locator. -/
inductive Flaw where
  | noScheme
  | noHost
  | badPort
  | badAddress32
  | badAddress128
  | badName
  | badCharacter
  deriving DecidableEq, Repr, Inhabited

def Flaw.message : Flaw → String
  | .noScheme => "relative URL without a base"
  | .noHost => "empty host"
  | .badPort => "invalid port number"
  | .badAddress32 => "invalid IPv4 address"
  | .badAddress128 => "invalid IPv6 address"
  | .badName => "invalid international domain name"
  | .badCharacter => "invalid domain character"

/-- The scheme in small letters, and what follows its colon. -/
def splitScheme (cs : List Char) : Option (String × List Char) :=
  match cs with
  | c :: _ =>
    if c.isAlpha then
      let isPart (c : Char) : Bool := c.isAlphanum || c == '+' || c == '-' || c == '.'
      match cs.dropWhile isPart with
      | ':' :: rest => some (String.ofList ((cs.takeWhile isPart).map Char.toLower), rest)
      | _ => none
    else none
  | [] => none

/-- An address in brackets. -/
def readBracketed (cs : List Char) : Except Flaw Host :=
  match Text.dropSuffix? [']'] cs with
  | none => .error .badAddress128
  | some inner =>
    match Address.read128 inner with
    | some groups => .ok (.address128 groups)
    | none => .error .badAddress128

variable [Domain.Spelling]

/-- The host of a scheme of the web. -/
def readWebHost (cs : List Char) : Except Flaw Host :=
  match cs with
  | '[' :: inner => readBracketed inner
  | cs =>
    match Domain.Spelling.toAscii (Text.Utf8.lossy (Text.Percent.decode cs)).toList with
    | none => .error .badName
    | some [] => .error .noHost
    | some name =>
      if Address.looksNumeric name then
        match Address.read32 name with
        | some address => .ok (.address32 address)
        | none => .error .badAddress32
      else .ok (.name (String.ofList name))

/-- The host of another scheme is taken as it stands. -/
def readOtherHost (cs : List Char) : Except Flaw Host :=
  match cs with
  | '[' :: inner => readBracketed inner
  | cs =>
    if cs.any fun c ↦ c.toNat == 0 || " #/:<>?@[\\]^|".toList.contains c then .error .badCharacter
    else .ok (.name (String.ofList (Text.Percent.encode Text.Percent.control cs)))

/-- Splits host and port at the first colon outside brackets. -/
def splitPort (inside : Bool) : List Char → List Char × Option (List Char)
  | [] => ([], none)
  | c :: cs =>
    if c = ':' ∧ ¬ inside then ([], some cs)
    else
      let inside := if c = '[' then true else if c = ']' then false else inside
      let (host, port) := splitPort inside cs
      (c :: host, port)

/-- The port, unless it is empty or the scheme's own. -/
def readPort (scheme : String) (cs : List Char) : Except Flaw (Option Nat) :=
  if cs = [] then .ok none
  else
    match Decimal.readNat? cs with
    | none => .error .badPort
    | some n =>
      if 65535 < n then .error .badPort
      else .ok (if defaultPort? scheme = some n then none else some n)

/-- The user's name and password. An empty password is none. -/
def readUser (cs : List Char) : String × Option String :=
  let encoded (cs : List Char) : String := String.ofList (Text.Percent.encode userSet cs)
  match Text.splitFirst ':' cs with
  | none => (encoded cs, none)
  | some (name, []) => (encoded name, none)
  | some (name, password) => (encoded name, some (encoded password))

/-- The part between the two slashes and the path. -/
def readAuthority (scheme : String) (cs : List Char) : Except Flaw Authority := do
  let web := isWebScheme scheme
  let (user, cs) :=
    match Text.splitLast '@' cs with
    | some (user, cs) => (some user, cs)
    | none => (none, cs)
  let (hostText, port) := splitPort false cs
  if hostText = [] && (web || port.isSome || user.isSome) then throw .noHost
  let host ← if web then readWebHost hostText else readOtherHost hostText
  let port ← readPort scheme (port.getD [])
  let (username, password) := readUser (user.getD [])
  .ok { username := username, password := password, host := host, port := port }

/-- The text before the first of some characters, and from it on. -/
def breakAt (stops : List Char) (cs : List Char) : List Char × List Char :=
  (cs.takeWhile (!stops.contains ·), cs.dropWhile (!stops.contains ·))

/-- The query and the fragment behind a path. -/
def readTail (web : Bool) (cs : List Char) : Option String × Option String :=
  let (front, fragment) :=
    match Text.splitFirst '#' cs with
    | some (front, fragment) =>
      (front, some (String.ofList (Text.Percent.encode fragmentSet fragment)))
    | none => (cs, none)
  let query :=
    match front with
    | '?' :: query => some (String.ofList (Text.Percent.encode (querySet web) query))
    | _ => none
  (query, fragment)

/-- The path behind an authority. -/
def readPath (web : Bool) (cs : List Char) : Path :=
  match cs with
  | [] => .segments (if web then [""] else [])
  | c :: rest =>
    if c = '/' ∨ (web ∧ c = '\\') then .segments (readSegments web rest)
    else .segments (readSegments web (c :: rest))

/-- A locator with an authority, from behind the two slashes. -/
def readHierarchical (scheme : String) (cs : List Char) : Except Flaw Url := do
  let web := isWebScheme scheme
  let (authorityText, rest) := breakAt (if web then ['/', '?', '#', '\\'] else ['/', '?', '#']) cs
  let authority ← readAuthority scheme authorityText
  let (pathText, tail) := breakAt ['?', '#'] rest
  let (query, fragment) := readTail web tail
  .ok { scheme := scheme, authority := some authority, path := readPath web pathText,
        query := query, fragment := fragment }

/-- A locator of a file. This machine's own name counts as no host. -/
def readFile (cs : List Char) : Except Flaw Url := do
  let isSlash (c : Char) : Bool := c == '/' || c == '\\'
  let (host, rest) ←
    match cs with
    | a :: b :: rest =>
      if isSlash a && isSlash b then
        let (hostText, rest) := breakAt ['/', '\\', '?', '#'] rest
        if hostText = [] then pure (.name "", rest)
        else
          let host ← readWebHost hostText
          pure (if host = .name "localhost" then .name "" else host, rest)
      else pure (.name "", cs)
    | cs => pure (Host.name "", cs)
  let (pathText, tail) := breakAt ['?', '#'] rest
  let (query, fragment) := readTail true tail
  .ok { scheme := "file", authority := some { host := host }, path := readPath true pathText,
        query := query, fragment := fragment }

/-- A locator without an authority. -/
def readPlain (scheme : String) (cs : List Char) : Url :=
  let (pathText, tail) := breakAt ['?', '#'] cs
  let (query, fragment) := readTail false tail
  let path :=
    match pathText with
    | '/' :: rest => Path.segments (readSegments false rest)
    | text => .plain (String.ofList (Text.Percent.encode Text.Percent.control text))
  { scheme := scheme, path := path, query := query, fragment := fragment }

/-- Whether a character is dropped at the ends of a locator. -/
def isEdge (c : Char) : Bool := c.toNat ≤ 32

/-- The locator that a text is. -/
def parse (text : String) : Except Flaw Url :=
  let cs := ((text.toList.dropWhile isEdge).reverse.dropWhile isEdge).reverse
  match splitScheme (cs.filter (!isSkipped ·)) with
  | none => .error .noScheme
  | some ("file", rest) => readFile rest
  | some (scheme, rest) =>
    if isWebScheme scheme then
      readHierarchical scheme (rest.dropWhile fun c ↦ c == '/' || c == '\\')
    else
      match rest with
      | '/' :: '/' :: rest => readHierarchical scheme rest
      | rest => .ok (readPlain scheme rest)

end SearchClient.Url

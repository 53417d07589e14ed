/-!
# Methods and headers

A method is a word of HTTP, one of the usual ones or any other. Headers have names, which are words
of at most 65535 letters, kept in small letters and each once, and values in which no control
character but the tab may stand.
-/

set_option autoImplicit false
set_option relaxedAutoImplicit false

namespace SearchClient

/-- What a request asks of the resource that it names. -/
structure Method where
  name : String
  deriving DecidableEq, Repr, Inhabited

namespace Method

def get : Method := ⟨"GET"⟩
def post : Method := ⟨"POST"⟩
def put : Method := ⟨"PUT"⟩
def delete : Method := ⟨"DELETE"⟩
def head : Method := ⟨"HEAD"⟩

end Method

namespace Header

/-- The characters of words in HTTP: letters, digits and fifteen marks. -/
def isWordChar (c : Char) : Bool :=
  c.isAlphanum || "!#$%&'*+-.^_|~".toList.contains c || c.toNat == 96

def isWord (s : String) : Bool := s ≠ "" && s.toList.all isWordChar

/-- The greatest length of a header's name. Words are of ASCII, so this is one in bytes as well. -/
def maxNameLength : Nat := 65535

/-- A word that is not too long can be the name of a header. -/
def isName (s : String) : Bool := isWord s && s.length ≤ maxNameLength

/-- The name of a header as it is kept, if the text is one. -/
def name? (s : String) : Option String :=
  if isName s then some (String.ofList (s.toList.map Char.toLower)) else none

/-- The characters that a value can hold. -/
def isValueChar (c : Char) : Bool := (32 ≤ c.toNat && c.toNat ≠ 127) || c == '\t'

def isValue (s : String) : Bool := s.toList.all isValueChar

end Header

namespace Method

/-- The method of a word, if the text is one. -/
def parse? (s : String) : Option Method := if Header.isWord s then some ⟨s⟩ else none

/-- The capital letters of a character, where they are those of ASCII. Any other character cannot
stand in a word, and neither can its capital letters. -/
def capitals (c : Char) : List Char :=
  match c with
  | 'ı' => ['I']
  | 'ſ' => ['S']
  | 'ß' => ['S', 'S']
  | 'ﬀ' => ['F', 'F']
  | 'ﬁ' => ['F', 'I']
  | 'ﬂ' => ['F', 'L']
  | 'ﬃ' => ['F', 'F', 'I']
  | 'ﬄ' => ['F', 'F', 'L']
  | 'ﬅ' | 'ﬆ' => ['S', 'T']
  | c => [c.toUpper]

/-- The method of a word in capital or small letters. -/
def parseAnyCase? (s : String) : Option Method := parse? (String.ofList (s.toList.flatMap capitals))

end Method

end SearchClient

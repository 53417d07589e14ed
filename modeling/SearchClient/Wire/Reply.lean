import SearchClient.Cluster.Program
import SearchClient.Text.Percent
import SearchClient.Text.Split

/-!
# Replies as bytes

A reply is a line with its status, its headers a line each, an empty line, and the content. How far
the content goes depends on the headers: it has a stated length, it comes in pieces with their
lengths in front, or it ends with the connection. `Reply.decode` says whether the bytes so far are a
whole reply.
-/

set_option autoImplicit false
set_option relaxedAutoImplicit false

namespace SearchClient.Wire

/-- What bytes are so far. -/
inductive Reading (α : Type) where
  | more
  | broken
  | whole (a : α)
  deriving Repr, Inhabited

/-- The line up to a line break, and the bytes after it. -/
def line? : Text.Bytes → Option (Text.Bytes × Text.Bytes)
  | [] => none
  | 13 :: 10 :: rest => some ([], rest)
  | 10 :: rest => some ([], rest)
  | b :: rest => (line? rest).map fun (line, rest) ↦ (b :: line, rest)

/-- The lines up to an empty one, and the bytes after it. -/
def lines? : (fuel : Nat) → Text.Bytes → Option (List (List Char) × Text.Bytes)
  | 0, _ => none
  | fuel + 1, bytes => do
    let (line, rest) ← line? bytes
    if line.isEmpty then some ([], rest)
    else
      let (lines, rest) ← lines? fuel rest
      some (line.map (fun b ↦ Char.ofNat b.toNat) :: lines, rest)

/-- The status in the first line of a reply. -/
def status? (line : List Char) : Option Nat := do
  let rest ← Text.dropPrefix? "HTTP/1.".toList line
  match rest with
  | _ :: ' ' :: a :: b :: c :: rest =>
    if [a, b, c].all Decimal.isDigit ∧ rest.head?.all (· = ' ') then
      some (Decimal.value [a, b, c])
    else none
  | _ => none

def isSpace (c : Char) : Bool := c == ' ' || c == '\t'

/-- A header in its line, the name in small letters and the value without blanks around it. -/
def header? (line : List Char) : Option (String × String) :=
  (Text.splitFirst ':' line).map fun (name, value) ↦
    let value := ((value.dropWhile isSpace).reverse.dropWhile isSpace).reverse
    (String.ofList (name.map Char.toLower), String.ofList value)

/-- The number that hexadecimal digits are. Something else may follow behind a semicolon. -/
def chunkSize? (line : Text.Bytes) : Option Nat :=
  let digits := (line.map fun b ↦ Char.ofNat b.toNat).takeWhile fun c ↦ c ≠ ';' && !isSpace c
  if digits.isEmpty then none
  else digits.foldlM (fun n c ↦ (Text.Percent.hexValue? c).map fun d ↦ 16 * n + d) 0

/-- A content in pieces, the last of which is empty. -/
def chunks : (fuel : Nat) → Text.Bytes → Reading Text.Bytes
  | 0, _ => .more
  | fuel + 1, bytes =>
    match line? bytes with
    | none => .more
    | some (line, rest) =>
      match chunkSize? line with
      | none => .broken
      | some 0 => if (lines? (rest.length + 1) rest).isSome then .whole [] else .more
      | some size =>
        if rest.length < size + 2 then .more
        else
          match chunks fuel (rest.drop (size + 2)) with
          | .whole content => .whole (rest.take size ++ content)
          | unfinished => unfinished

/-- The content behind the headers of a reply, when the connection is still open or has been
closed. -/
def content (headers : Headers) (closed : Bool) (bytes : Text.Bytes) : Reading Text.Bytes :=
  let header? (name : String) : Option String := (headers.find? (·.1 == name)).map (·.2)
  let reading :=
    match header? "transfer-encoding", header? "content-length" with
    | some _, _ => chunks (bytes.length + 1) bytes
    | none, some text =>
      match Decimal.readInt? text.toList with
      | some (.ofNat length) => if bytes.length < length then .more else .whole (bytes.take length)
      | _ => .broken
    | none, none => if closed then .whole bytes else .more
  match reading with
  | .more => if closed then .broken else .more
  | reading => reading

/-- Whether a reply has no content whatever its headers say. -/
def isEmpty (asked : Method) (status : Nat) : Bool :=
  asked == .head || status == 204 || status == 304

/-- What bytes are as the reply to a method. Notices in advance of a reply are passed over. -/
def decodeFrom (asked : Method) (closed : Bool) : (fuel : Nat) → Text.Bytes → Reading Reply
  | 0, _ => .broken
  | fuel + 1, bytes =>
    match lines? (bytes.length + 1) bytes with
    | none => if closed then .broken else .more
    | some (lines, rest) =>
      match lines with
      | [] => .broken
      | first :: lines =>
        match status? first, lines.mapM header? with
        | some status, some headers =>
          if status < 200 then decodeFrom asked closed fuel rest
          else if isEmpty asked status then .whole ⟨status, headers, []⟩
          else
            match content headers closed rest with
            | .whole body => .whole ⟨status, headers, body⟩
            | .more => .more
            | .broken => .broken
        | _, _ => .broken

/-- What bytes are as the reply to a method. -/
def decode (asked : Method) (closed : Bool) (bytes : Text.Bytes) : Reading Reply :=
  decodeFrom asked closed (bytes.length + 1) bytes

end SearchClient.Wire

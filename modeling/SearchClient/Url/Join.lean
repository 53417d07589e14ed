import SearchClient.Text.Form
import SearchClient.Url.Basic

/-!
# Locators below a locator

The locator of a node is extended by the path and the parameters of a request. What the node's own
locator has of either stays in front.
-/

set_option autoImplicit false
set_option relaxedAutoImplicit false

namespace SearchClient.Url

/-- The locator with a path written out as text, question marks and hashes in it being encoded. -/
def setPath (url : Url) (path : String) : Url :=
  let cs := path.toList.filter (!isSkipped ·)
  let path :=
    match url.path with
    | .plain _ =>
      let encoded := Text.Percent.encode Text.Percent.control
      match cs with
      | '/' :: rest => Path.plain (String.ofList ("%2F".toList ++ encoded rest))
      | cs => .plain (String.ofList (encoded cs))
    | .segments _ =>
      match cs with
      | [] => .segments (if url.isWeb then [""] else [])
      | c :: rest =>
        if c = '/' ∨ (url.isWeb ∧ c = '\\') then .segments (readSegments url.isWeb rest)
        else .segments (readSegments url.isWeb (c :: rest))
  { url with path := path }

/-- The path without slashes at its end, joined by one slash to a path without slashes in front. -/
def joinPath (url : Url) (path : String) : Url :=
  let front := (url.path.text.toList.reverse.dropWhile (· = '/')).reverse
  let back := path.toList.dropWhile (· = '/')
  url.setPath (String.ofList (front ++ '/' :: back))

/-- A path that is only a slash has no segment yet. -/
def openEnd (items : List String) : List String :=
  if items = [""] then [] else items

/-- An empty segment at the end, which a slash leaves behind, is dropped. -/
def dropOpenEnd (items : List String) : List String :=
  match items.getLast? with
  | some "" => if items = [""] then items else items.dropLast
  | _ => items

/-- One value becomes one segment. The two names for the place itself and the one above are passed
over. -/
def pushSegment (web : Bool) (items : List String) (value : String) : List String :=
  if value = "." ∨ value = ".." then items
  else
    let cs := value.toList.filter (!isSkipped ·)
    enter (openEnd items) (Text.Percent.encode (segmentSet web) cs) true

/-- The locator with a segment for each value, if its path has segments at all. -/
def extend (url : Url) (values : List String) : Option Url :=
  match url.path with
  | .plain _ => none
  | .segments items =>
    some { url with path := .segments (values.foldl (pushSegment url.isWeb) (dropOpenEnd items)) }

/-- The locator with pairs added to its query. -/
def addPairs (url : Url) (pairs : List (String × String)) : Url :=
  let added := String.ofList (Text.Form.encode pairs)
  match url.query with
  | none | some "" => { url with query := some added }
  | some query => { url with query := some (query ++ "&" ++ added) }

end SearchClient.Url

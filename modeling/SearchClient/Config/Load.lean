import SearchClient.Config.Basic
import SearchClient.Config.Environment
import SearchClient.Toml.Parser

/-!
# Loading a configuration

The environment configures the client, and so does a file; where both say something the file counts.
A file that is not there says nothing.
-/

set_option autoImplicit false
set_option relaxedAutoImplicit false

namespace SearchClient.ClientConfig

/-- A file that was asked for: its path, and its text if it is there. -/
structure File where
  path : String
  text : Option String
  deriving DecidableEq, Repr, Inhabited

/-- What a file configures, unless it is malformed. -/
def File.document? (file : File) : Option Json :=
  match file.text with
  | some text => Toml.parse? text
  | none => some (.object [])

/-- What went into a configuration that cannot be understood. -/
structure Unloadable where
  path : Option String
  deriving DecidableEq, Repr, Inhabited

def Unloadable.message (e : Unloadable) : String :=
  match e.path with
  | some path =>
    "💀 Failed to parse client configuration from '" ++ path ++
      "' and environment variables (OSC_*)"
  | none => "💀 Failed to parse client configuration from environment variables (OSC_*)"

/-- The configuration of an environment and perhaps a file. -/
def load (env : Environment) (file : Option File) : Except Unloadable ClientConfig :=
  let under := env.document
  let document? : Option Json :=
    match file with
    | none => some under
    | some file => file.document?.map under.overlay
  match document?.bind ofJson? with
  | some config => .ok config
  | none => .error ⟨file.map File.path⟩

end SearchClient.ClientConfig

import SearchClient.Text.Split

/-!
# Command lines

A grammar tells which commands there are, which values stand in a fixed place behind each of them,
and which go by name. `Grammar.read` finds a command and its values among arguments. A named value
of the outermost command may stand behind any other one too, and there the inner one counts. Within
one command a name is used at most once, and after two dashes alone no argument is a name.
-/

set_option autoImplicit false
set_option relaxedAutoImplicit false

namespace SearchClient.Console

/-- A value that stands in a fixed place. -/
structure Operand where
  name : String
  required : Bool := true
  repeated : Bool := false
  help : String := ""
  deriving DecidableEq, Repr, Inhabited

/-- Something that goes by name, with a value or without one. -/
structure Flag where
  name : String
  letter : Option Char := none
  takesValue : Bool := true
  mayBeEmpty : Bool := true
  help : String := ""
  deriving DecidableEq, Repr, Inhabited

/-- A command, what goes with it, and the commands below it. -/
inductive Grammar where
  | node (name help : String) (operands : List Operand) (flags : List Flag)
      (commands : List Grammar)
  deriving Repr, Inhabited

namespace Grammar

def name : Grammar → String
  | node name _ _ _ _ => name

def help : Grammar → String
  | node _ help _ _ _ => help

def operands : Grammar → List Operand
  | node _ _ operands _ _ => operands

def flags : Grammar → List Flag
  | node _ _ _ flags _ => flags

def commands : Grammar → List Grammar
  | node _ _ _ _ commands => commands

/-- The command of a name. -/
def command? (g : Grammar) (name : String) : Option Grammar :=
  g.commands.find? fun c ↦ c.name == name

end Grammar

/-- The command that tells about the others. -/
def helpCommand : Grammar :=
  .node "help" "Print this message or the help of the given subcommand(s)"
    [{ name := "COMMAND", required := false, repeated := true
       help := "Print help for the subcommand(s)" }] [] []

/-- What was found among arguments. -/
structure Findings where
  /-- The names of the commands, the outer ones first. -/
  path : List String
  operands : List String
  /-- The named values, the inner ones first. -/
  values : List (String × String)
  deriving DecidableEq, Repr, Inhabited

namespace Findings

/-- The value of a name. -/
def value? (f : Findings) (name : String) : Option String :=
  (f.values.find? (·.1 == name)).map (·.2)

/-- Whether a name was used. -/
def has (f : Findings) (name : String) : Bool := (f.value? name).isSome

end Findings

/-- Why reading ends without a command to be run. -/
inductive Stop where
  | misused
  | version
  /-- Help is asked for about a command, which stands behind these names. -/
  | help (path : List String) (about : Grammar)
  deriving Repr, Inhabited

/-- How far reading has come. -/
structure Scan where
  found : Findings
  /-- The names that were used with the command at hand. -/
  used : List String := []
  /-- The name whose value is the next argument. -/
  awaiting : Option Flag := none
  /-- Whether all that follows are values in fixed places. -/
  verbatim : Bool := false
  deriving Repr, Inhabited

namespace Scan

/-- A name gets its value. -/
def give (s : Scan) (flag : Flag) (value : String) : Except Stop Scan :=
  if s.used.contains flag.name then .error .misused
  else if value = "" ∧ ¬ flag.mayBeEmpty then .error .misused
  else
    .ok { s with
            found := { s.found with values := (flag.name, value) :: s.found.values }
            used := flag.name :: s.used, awaiting := none }

/-- A name without a value of its own, or one that waits for its value. -/
def mention (s : Scan) (flag : Flag) : Except Stop Scan :=
  if flag.takesValue then .ok { s with awaiting := some flag }
  else s.give { flag with mayBeEmpty := true } ""

/-- A value in the next fixed place, if there is one. -/
def place (s : Scan) (g : Grammar) (value : String) : Except Stop Scan :=
  if s.found.operands.length < g.operands.length then
    .ok { s with found := { s.found with operands := s.found.operands ++ [value] } }
  else .error .misused

/-- A command below the one at hand. -/
def enter (s : Scan) (g : Grammar) : Scan :=
  { s with found := { s.found with path := s.found.path ++ [g.name] }, used := [] }

/-- The end of the arguments. Whatever is required has to be there. -/
def finish (s : Scan) (g : Grammar) : Except Stop Findings :=
  let required := (g.operands.filter (·.required)).length
  if s.awaiting.isSome ∨ ¬ g.commands.isEmpty ∨ s.found.operands.length < required then
    .error .misused
  else .ok s.found

end Scan

/-- Whether an argument begins like a name. -/
def beginsWithDash (argument : String) : Bool :=
  match argument.toList with
  | '-' :: _ :: _ => true
  | _ => false

/-- A long name, perhaps with its value behind an equals sign. -/
def readName (g : Grammar) (flags : List Flag) (s : Scan) (cs : List Char) : Except Stop Scan :=
  let (name, value) :=
    match Text.splitFirst '=' cs with
    | some (name, value) => (String.ofList name, some (String.ofList value))
    | none => (String.ofList cs, none)
  match flags.find? (·.name == name), value with
  | some flag, some value => if flag.takesValue then s.give flag value else .error .misused
  | some flag, none => s.mention flag
  | none, some _ => .error .misused
  | none, none =>
    if name = "help" then .error (.help s.found.path g)
    else if name = "version" ∧ s.found.path = [] then .error .version
    else .error .misused

/-- Letters behind one dash. What follows a letter that takes a value is that value. -/
def readLetters (g : Grammar) (flags : List Flag) (s : Scan) : List Char → Except Stop Scan
  | [] => .ok s
  | c :: cs =>
    match flags.find? (·.letter == some c) with
    | some flag =>
      if flag.takesValue then
        match cs with
        | [] => s.mention flag
        | '=' :: value => s.give flag (String.ofList value)
        | value => s.give flag (String.ofList value)
      else do readLetters g flags (← s.mention flag) cs
    | none =>
      if c = 'h' then .error (.help s.found.path g)
      else if c = 'V' ∧ s.found.path = [] then .error .version
      else .error .misused

/-- The command that help is asked for. -/
def helpAbout (path : List String) (g : Grammar) : List String → Stop
  | [] => .help path g
  | name :: names =>
    match (g.commands ++ if g.commands.isEmpty then [] else [helpCommand]).find?
        fun c ↦ c.name == name with
    | some c => helpAbout (path ++ [name]) c names
    | none => .misused

/-- The command among arguments, read from a given state on. Names of outer commands go with
it. -/
def readFrom (g : Grammar) (outer : List Flag) (s : Scan) : List String → Except Stop Findings
  | [] => s.finish g
  | argument :: rest =>
    if s.verbatim then do readFrom g outer (← s.place g argument) rest
    else
      match s.awaiting with
      | some flag =>
        if beginsWithDash argument then .error .misused
        else do readFrom g outer (← s.give flag argument) rest
      | none =>
        match g.command? argument with
        | some c => readFrom c (outer ++ g.flags) (s.enter c) rest
        | none =>
          if argument = "help" ∧ ¬ g.commands.isEmpty then .error (helpAbout s.found.path g rest)
          else
            match argument.toList with
            | ['-', '-'] => readFrom g outer { s with verbatim := true } rest
            | '-' :: '-' :: cs => do readFrom g outer (← readName g (g.flags ++ outer) s cs) rest
            | '-' :: c :: cs => do
              readFrom g outer (← readLetters g (g.flags ++ outer) s (c :: cs)) rest
            | _ => do readFrom g outer (← s.place g argument) rest

/-- The command among arguments. -/
def Grammar.read (g : Grammar) (arguments : List String) : Except Stop Findings :=
  readFrom g [] { found := ⟨[], [], []⟩ } arguments

end SearchClient.Console

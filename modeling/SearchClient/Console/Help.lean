import SearchClient.Console.Grammar
import SearchClient.Display.Width

/-!
# Help about commands

What a command does, how it is called, and what goes with it, in columns. When names take up much of
a line and some help text does not fit beside them, all texts of that part stand on lines of their
own.
-/

set_option autoImplicit false
set_option relaxedAutoImplicit false

namespace SearchClient.Console

/-- The columns of a line. -/
def lineWidth : Nat := 100

/-- Whether help texts stand below what they are about. -/
def areBelow (widest : Nat) (texts : List String) : Bool :=
  let taken := widest + 12
  texts.any fun text ↦
    taken ≤ lineWidth && 40 * lineWidth < 100 * taken && lineWidth - taken < Display.width text

/-- How an operand stands in the line about the usage. -/
def Operand.shown (o : Operand) : String :=
  (if o.required then "<" ++ o.name ++ ">" else "[" ++ o.name ++ "]") ++
    if o.repeated then "..." else ""

/-- What the value of a flag is called. -/
def Flag.valueName (f : Flag) : String :=
  String.ofList (f.name.toList.map fun c ↦ if c = '-' then '_' else c.toUpper)

/-- The long name of a flag and its value. -/
def Flag.shown (f : Flag) : String :=
  "--" ++ f.name ++ if f.takesValue then " <" ++ f.valueName ++ ">" else ""

/-- The letter of a flag, or the room for one. -/
def Flag.letterShown (f : Flag) : String :=
  match f.letter with
  | some letter => "-" ++ String.singleton letter ++ ", "
  | none => "    "

def helpFlag : Flag :=
  { name := "help", letter := some 'h', takesValue := false, help := "Print help" }

def versionFlag : Flag :=
  { name := "version", letter := some 'V', takesValue := false, help := "Print version" }

/-- Something with what stands in front of it and its help. -/
structure HelpEntry where
  lead : String
  shown : String
  help : String
  deriving DecidableEq, Repr, Inhabited

/-- A part of the help: a heading, and an entry a line. -/
def helpPart (heading : String) (entries : List HelpEntry) : List String :=
  let widest := (entries.map fun e ↦ Display.width e.shown).foldl max 2
  let below := areBelow widest (entries.map (·.help))
  let line (e : HelpEntry) : List String :=
    if below then ["  " ++ e.lead ++ e.shown, "          " ++ e.help]
    else
      let gap := widest + 2 - Display.width e.shown
      ["  " ++ e.lead ++ e.shown ++ String.ofList (List.replicate gap ' ') ++ e.help]
  if entries.isEmpty then [] else "" :: (heading ++ ":") :: entries.flatMap line

/-- Flags in the order in which help tells them: their own rank, and flags with a letter by it. -/
def rankedFlags (own outer : List Flag) : List Flag :=
  let keyed (fs : List Flag) : List ((Nat × String) × Flag) :=
    (List.range fs.length).zip fs |>.map fun (rank, f) ↦
      ((rank, match f.letter with
        | some letter => String.singleton letter.toLower
        | none => f.name), f)
  let before (a b : (Nat × String) × Flag) : Bool :=
    a.1.1 < b.1.1 || (a.1.1 == b.1.1 && decide (a.1.2 ≤ b.1.2))
  ((keyed own ++ keyed outer).mergeSort before).map (·.2)

/-- The help about a command of a program, reached by names, with the flags of outer commands. -/
def Grammar.helpLines (g : Grammar) (path : List String) (outer : List Flag) : List String :=
  let isHelp := path.getLast? == some helpCommand.name
  let flags :=
    if isHelp then []
    else
      rankedFlags g.flags outer ++ [helpFlag] ++ if path.isEmpty then [versionFlag] else []
  let usage :=
    ["Usage: osc"] ++ path ++ (if flags.isEmpty then [] else ["[OPTIONS]"]) ++
      g.operands.map Operand.shown ++ if g.commands.isEmpty then [] else ["<COMMAND>"]
  let commands := if g.commands.isEmpty then [] else g.commands ++ [helpCommand]
  [g.help, "", " ".intercalate usage] ++
    helpPart "Commands" (commands.map fun c ↦ ⟨"", c.name, c.help⟩) ++
    helpPart "Arguments" (g.operands.map fun o ↦ ⟨"", o.shown, o.help⟩) ++
    helpPart "Options" (flags.map fun f ↦ ⟨f.letterShown, f.shown, f.help⟩)

end SearchClient.Console

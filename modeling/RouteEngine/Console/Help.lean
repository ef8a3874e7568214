import RouteEngine.Console.Listing
import RouteEngine.Console.Registry

/-!
Help on the program and its commands: what it is for, how to call it, and a section each for
commands, operands and options, in which the descriptions stand below one another.
-/

namespace RouteEngine.Help

/-- A left and a right column. -/
structure Row where
  left : String
  right : String
  deriving DecidableEq, Repr

def rowText (width : Nat) (r : Row) : String :=
  "  " ++ String.ofList (Listing.padEnd width r.left.toList) ++ "  " ++ r.right ++ "\n"

/-- A section with its title; nothing when it has no rows. -/
def sectionText (title : String) (rows : List Row) : String :=
  let width := (rows.map fun r => r.left.length).foldl max 0
  if rows.isEmpty then "" else "\n" ++ title ++ ":\n" ++ String.join (rows.map (rowText width))

def takesValue (o : OptionSpec) : Bool := o.kind ≠ .flag

def optionRow (o : OptionSpec) : Row where
  left :=
    (match o.short with
      | some c => "-" ++ c.toString ++ ", "
      | none => "    ") ++
    "--" ++ o.name ++ if takesValue o then " <" ++ o.name ++ ">" else ""
  right :=
    match o.default with
    | some value => o.help ++ " [default: " ++ value ++ "]"
    | none => o.help

def helpRow : Row := ⟨"-h, --help", "Print help"⟩

/-- Options of one place are ordered by their short names, or else by their long ones. -/
def optionKey (o : OptionSpec) : String :=
  match o.short with
  | some c => c.toString
  | none => o.name

def precedes (a b : OptionSpec × Nat) : Bool :=
  a.2 < b.2 || (a.2 = b.2 && !(optionKey b.1 < optionKey a.1))

/-- The options of a command and the shared ones, first those declared first of either. -/
def optionRows (own : List OptionSpec) : List Row :=
  let placed := (own.zipIdx ++ sharedOptions.zipIdx).mergeSort precedes
  placed.map (fun o => optionRow o.1) ++ [helpRow]

/-- Only an operand that is always needed stands in angle brackets. -/
def operandText (o : OperandSpec) : String :=
  let name := if o.need = .always then "<" ++ o.name ++ ">" else "[" ++ o.name ++ "]"
  if o.many then name ++ "..." else name

def operandRow (o : OperandSpec) : Row := ⟨operandText o, o.help⟩

def commandRow (c : CommandSpec) : Row := ⟨c.name, c.help⟩

def frame (about usage sections : String) : String :=
  about ++ "\n\nUsage: " ++ usage ++ "\n" ++ sections

def programName : String := Registry.frontSpec.name

/-- The command that prints help. -/
def helpCommand : CommandSpec where
  name := "help"
  help := "Print this message or the help of the given subcommand(s)"
  operands := [
    { name := "COMMAND", help := "Print help for the subcommand(s)", need := .never, many := true }]

def operandsUsage (c : CommandSpec) : String :=
  String.join (c.operands.map fun o => " " ++ operandText o)

def commandText (c : CommandSpec) : String :=
  frame c.help (programName ++ " " ++ c.name ++ " [OPTIONS]" ++ operandsUsage c)
    (sectionText "Arguments" (c.operands.map operandRow) ++
      sectionText "Options" (optionRows c.options))

def helpCommandText : String :=
  frame helpCommand.help (programName ++ " " ++ helpCommand.name ++ operandsUsage helpCommand)
    (sectionText "Arguments" (helpCommand.operands.map operandRow))

/-- Help on the program; the command for help stands behind all others. -/
def overview (r : Registry) : String :=
  let commands := r.names.filterMap r.get? ++ [helpCommand]
  frame Registry.frontSpec.help (programName ++ " [OPTIONS] <COMMAND>")
    (sectionText "Commands" (commands.map commandRow) ++ sectionText "Options" (optionRows []))

def text (r : Registry) : (command : Option String) → String
  | none => overview r
  | some name =>
    match r.get? name with
    | some c => commandText c
    | none => helpCommandText

end RouteEngine.Help

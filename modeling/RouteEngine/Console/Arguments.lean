import RouteEngine.Text.Numeral
import RouteEngine.Text.Split

/-!
Command lines: options by their long or short names, operands, and the name of a command, which
hands the rest of the line to that command. Values may be attached to their option or follow it,
short options may be run together, and behind `--` there are operands only.
-/

namespace RouteEngine

inductive OptionKind
  | flag
  | text
  | port
  /-- May be given several times. -/
  | many
  deriving DecidableEq, Repr

structure OptionSpec where
  name : String
  short : Option Char := none
  kind : OptionKind
  help : String
  /-- What holds when the option is not given. -/
  default : Option String := none
  deriving Repr

/-- Whether an operand has to be given. -/
inductive Need
  | always
  | unlessGiven (option : String)
  | never
  deriving DecidableEq, Repr

structure OperandSpec where
  name : String
  help : String
  need : Need := .always
  /-- Takes all operands that follow, too. -/
  many : Bool := false
  deriving Repr

/-- What a command may be given. -/
structure CommandSpec where
  name : String
  help : String
  options : List OptionSpec := []
  operands : List OperandSpec := []
  deriving Repr

/-- Why a command line is not carried out. -/
inductive UsageStop
  | fault
  /-- Help was asked for, on one command or on all of them. -/
  | help (command : Option String)
  deriving DecidableEq, Repr

/-- Help that was asked for while the words of a command were read. -/
def UsageStop.within (command : String) : UsageStop → UsageStop
  | fault => fault
  | help _ => help (some command)

/-- The options and operands read so far, the latest option first. -/
structure Arguments where
  options : List (String × String) := []
  operands : List String := []
  deriving Repr

namespace Arguments

def has (a : Arguments) (name : String) : Bool := a.options.any fun o => o.1 = name

def value? (a : Arguments) (name : String) : Option String :=
  (a.options.find? fun o => o.1 = name).map (·.2)

/-- All values of an option in the order of the line. -/
def values (a : Arguments) (name : String) : List String :=
  ((a.options.filter fun o => o.1 = name).map (·.2)).reverse

/-- A port with a sign; a negative one is only zero. -/
def portNumber? (s : String) : Option Nat :=
  match s.toList with
  | '-' :: ds => if !ds.isEmpty && ds.all (· = '0') then some 0 else none
  | _ => Text.port? s

def isValid (kind : OptionKind) (value : String) : Bool :=
  kind ≠ .port || (portNumber? value).isSome

/-- Takes in an option, which has to be new unless it may be given several times. -/
def addOption (a : Arguments) (o : OptionSpec) (value : String) : Except UsageStop Arguments :=
  if (a.has o.name && o.kind ≠ .many) || !isValid o.kind value then .error .fault
  else .ok { a with options := (o.name, value) :: a.options }

def addOperand (a : Arguments) (spec : CommandSpec) (value : String) :
    Except UsageStop Arguments :=
  if a.operands.length < spec.operands.length || spec.operands.any (·.many) then
    .ok { a with operands := a.operands ++ [value] }
  else .error .fault

/-- An attached value, less the equals sign before it. -/
def attached : List Char → String
  | '=' :: r => String.ofList r
  | r => String.ofList r

/-- Reads short options run together. The last one may want the next word for its value. -/
def addShort (spec : CommandSpec) (a : Arguments) : List Char →
    Except UsageStop (Arguments × Option OptionSpec)
  | [] => .ok (a, none)
  | c :: cs =>
    if c = 'h' then .error (.help none)
    else
      match spec.options.find? fun o => o.short = some c with
      | none => .error .fault
      | some o =>
        if o.kind = .flag then do addShort spec (← a.addOption o "") cs
        else if cs.isEmpty then .ok (a, some o)
        else (a.addOption o (attached cs)).map fun a => (a, none)

/-- Reads a long option, which may want the next word for its value. -/
def addLong (spec : CommandSpec) (a : Arguments) (word : List Char) :
    Except UsageStop (Arguments × Option OptionSpec) :=
  let (name, value) :=
    match Text.splitFirst '=' word with
    | some (name, value) => (String.ofList name, some (String.ofList value))
    | none => (String.ofList word, none)
  if name = "help" then .error (if value.isSome then .fault else .help none)
  else
    match spec.options.find? fun o => o.name = name with
    | none => .error .fault
    | some o =>
      match value with
      | some v => if o.kind = .flag then .error .fault else (a.addOption o v).map fun a => (a, none)
      | none => if o.kind = .flag then (a.addOption o "").map fun a => (a, none) else .ok (a, some o)

/-- All operands that are needed were given, `place` being that of the first of them. -/
def fills (a : Arguments) (place : Nat) : List OperandSpec → Bool
  | [] => true
  | o :: os =>
    let given := place < a.operands.length
    let enough :=
      match o.need with
      | .always => given
      | .unlessGiven option => given || a.has option
      | .never => true
    enough && fills a (place + 1) os

def looksLikeOption (word : String) : Bool :=
  match word.toList with
  | '-' :: _ :: _ => true
  | _ => false

/-- Reads words up to the name of a command, which is given back with the words behind it. -/
def read (spec : CommandSpec) (isCommand : String → Bool) (operandsOnly : Bool) (a : Arguments) :
    List String → Except UsageStop (Arguments × Option (String × List String))
  | [] => .ok (a, none)
  | word :: rest =>
    if operandsOnly then do
      let a ← a.addOperand spec word
      read spec isCommand true a rest
    else if isCommand word then .ok (a, some (word, rest))
    else
      match word.toList with
      | ['-', '-'] => read spec isCommand true a rest
      | '-' :: '-' :: name => do
        let (a, wanting) ← addLong spec a name
        match wanting, rest with
        | none, rest => read spec isCommand false a rest
        | some _, [] => .error .fault
        | some o, value :: rest =>
          if looksLikeOption value then .error .fault
          else do
            let a ← a.addOption o value
            read spec isCommand false a rest
      | '-' :: c :: cs => do
        let (a, wanting) ← addShort spec a (c :: cs)
        match wanting, rest with
        | none, rest => read spec isCommand false a rest
        | some _, [] => .error .fault
        | some o, value :: rest =>
          if looksLikeOption value then .error .fault
          else do
            let a ← a.addOption o value
            read spec isCommand false a rest
      | _ => do
        let a ← a.addOperand spec word
        read spec isCommand false a rest

end Arguments

end RouteEngine

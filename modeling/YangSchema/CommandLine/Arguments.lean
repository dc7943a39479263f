import YangSchema.Literal

/-!
# Command line arguments

A command line names a command, the paths of its sources and options. Long
options take their value behind `=` or as the next argument, the one short
option also without anything between. An option may be given once, `-v` any
number of times. Behind `--` everything is a path.
-/

namespace YangSchema.CommandLine

inductive Command where
  | check
  | tree
  | modules
  deriving DecidableEq, Repr

/-- Options without a value. -/
inductive Switch where
  | strict
  | brief
  | json
  | noGroupings
  deriving DecidableEq, Repr

/-- Options with a value. -/
inductive Setting where
  | fuel
  | color
  | module
  deriving DecidableEq, Repr

inductive ColorChoice where
  | auto
  | always
  | never
  deriving DecidableEq, Repr

inductive UsageError where
  | missingCommand
  | unknownCommand (name : String)
  | missingPath
  | emptyPath
  | unknownOption (text : String)
  | repeatedOption (name : String)
  | missingValue (name : String)
  | unexpectedValue (name : String)
  | invalidValue (name value : String)
  deriving DecidableEq, Repr

def UsageError.message : UsageError → String
  | missingCommand => "a command is required"
  | unknownCommand name => s!"unrecognized command '{name}'"
  | missingPath => "at least one path is required"
  | emptyPath => "a path must not be empty"
  | unknownOption text => s!"unexpected argument '{text}' found"
  | repeatedOption name => s!"'{name}' cannot be used multiple times"
  | missingValue name => s!"a value is required for '{name}'"
  | unexpectedValue name => s!"unexpected value for '{name}'"
  | invalidValue name value => s!"invalid value '{value}' for '{name}'"

namespace Command

def name : Command → String
  | check => "check"
  | tree => "tree"
  | modules => "modules"

def ofName? (name : String) : Option Command :=
  [check, tree, modules].find? (·.name == name)

def switches : Command → List Switch
  | check => [.strict, .brief]
  | tree => [.noGroupings, .json]
  | modules => [.json]

def settings : Command → List Setting
  | tree => [.module, .fuel, .color]
  | _ => [.fuel, .color]

end Command

def Switch.name : Switch → String
  | strict => "--strict"
  | brief => "--brief"
  | json => "--json"
  | noGroupings => "--no-groupings"

namespace Setting

def name : Setting → String
  | fuel => "--fuel"
  | color => "--color"
  | module => "--module"

def shortName? : Setting → Option Char
  | module => some 'm'
  | _ => none

end Setting

def ColorChoice.ofName? : String → Option ColorChoice
  | "auto" => some .auto
  | "always" => some .always
  | "never" => some .never
  | _ => none

/-- What a command is given. -/
structure Options where
  paths : List String
  switches : List Switch
  fuel : Option Nat
  color : Option ColorChoice
  module : Option String
  deriving DecidableEq, Repr

def Options.none : Options :=
  ⟨[], [], Option.none, Option.none, Option.none⟩

/-- What a command line asks for. -/
inductive Request where
  | help
  | run (command : Command) (options : Options)
  deriving DecidableEq, Repr

/-- Decimal digits behind an optional sign, for a value of at most 32 bits. -/
def readFuel? (text : String) : Option Nat :=
  let (isNegative, digits) :=
    match text.toList with
    | '+' :: digits => (false, digits)
    | '-' :: digits => (true, digits)
    | digits => (false, digits)
  let value := Literal.digitsValue digits
  if digits.isEmpty || !digits.all Char.isDigit then none
  else if (isNegative && value ≠ 0) || Nat.pow 2 32 ≤ value then none
  else some value

namespace Options

def addPath (options : Options) (path : String) :
    Except UsageError Options :=
  if path.isEmpty then throw .emptyPath
  else return { options with paths := options.paths ++ [path] }

def addSwitch (options : Options) (switch : Switch) :
    Except UsageError Options :=
  if options.switches.contains switch then
    throw (.repeatedOption switch.name)
  else
    return { options with switches := switch :: options.switches }

def addSetting (options : Options) (setting : Setting) (value : String) :
    Except UsageError Options := do
  let repeated : UsageError := .repeatedOption setting.name
  let invalid : UsageError := .invalidValue setting.name value
  match setting with
  | .fuel =>
      let some fuel := readFuel? value | throw invalid
      if options.fuel.isSome then throw repeated
      return { options with fuel := some fuel }
  | .color =>
      let some color := ColorChoice.ofName? value | throw invalid
      if options.color.isSome then throw repeated
      return { options with color := some color }
  | .module =>
      if options.module.isSome then throw repeated
      return { options with module := some value }

end Options

/-- What one argument says. -/
inductive ArgumentMeaning where
  | help
  | switch (switch : Switch)
  | setting (setting : Setting) (value : Option String)
  | nothing
  deriving DecidableEq, Repr

/-- Whether an argument cannot be the value of the option before it. -/
def looksLikeOption (argument : String) : Bool :=
  argument.startsWith "-" && argument ≠ "-"

/-- The name and the attached value of a long option. -/
def splitLong (argument : String) : String × Option String :=
  match Text.cutAt '=' argument.toList with
  | some (name, value) => (String.ofList name, some (String.ofList value))
  | none => (argument, none)

/-- Reads `--name` or `--name=value`. -/
def readLong (command : Command) (argument : String) :
    Except UsageError ArgumentMeaning :=
  let (name, value) := splitLong argument
  if let some switch := command.switches.find? (·.name == name) then
    if value.isSome then throw (.unexpectedValue name)
    else return .switch switch
  else if let some setting := command.settings.find? (·.name == name) then
    return .setting setting value
  else if argument = "--help" then
    return .help
  else
    throw (.unknownOption argument)

/-- Reads the characters behind a single hyphen: any number of `v`, then an
option with a value, of which the rest is the value. -/
def readShort (settings : List Setting) :
    List Char → Except UsageError ArgumentMeaning
  | [] => return .nothing
  | 'v' :: rest => readShort settings rest
  | 'h' :: _ => return .help
  | c :: rest =>
      match settings.find? (·.shortName? == some c) with
      | none => throw (.unknownOption (String.ofList ['-', c]))
      | some setting =>
          return .setting setting <|
            match rest with
            | [] => none
            | '=' :: value => some (String.ofList value)
            | value => some (String.ofList value)

/-- Reads one argument that starts with a hyphen. -/
def readOption (command : Command) (argument : String) :
    Except UsageError ArgumentMeaning :=
  if argument.startsWith "--" then readLong command argument
  else readShort command.settings (argument.toList.drop 1)

/-- Reads the arguments of a command. -/
def readOptions (command : Command) (options : Options) :
    List String → Except UsageError Request
  | [] =>
      if options.paths.isEmpty then throw .missingPath
      else return .run command options
  | "--" :: paths => do
      let options ← paths.foldlM Options.addPath options
      if options.paths.isEmpty then throw .missingPath
      return .run command options
  | argument :: rest => do
      if looksLikeOption argument then
        match ← readOption command argument with
        | .help => return .help
        | .nothing => readOptions command options rest
        | .switch switch =>
            readOptions command (← options.addSwitch switch) rest
        | .setting setting (some value) =>
            readOptions command (← options.addSetting setting value) rest
        | .setting setting none =>
            match rest with
            | [] => throw (.missingValue setting.name)
            | value :: rest =>
                if looksLikeOption value then
                  throw (.missingValue setting.name)
                else
                  readOptions command (← options.addSetting setting value) rest
      else
        readOptions command (← options.addPath argument) rest

/-- Reads a whole command line, without the name of the program. -/
def Request.ofArguments : List String → Except UsageError Request
  | [] => throw .missingCommand
  | argument :: rest => do
      if let some command := Command.ofName? argument then
        readOptions command .none rest
      else if argument = "help" ∨ argument = "--help" then
        return .help
      else if argument.startsWith "--" ∨ !looksLikeOption argument then
        throw (.unknownCommand argument)
      else
        match ← readShort [] (argument.toList.drop 1) with
        | .nothing => Request.ofArguments rest
        | _ => return .help

end YangSchema.CommandLine

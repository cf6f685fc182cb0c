import EngineTrials.Json.Numeral

/-! The arguments of a command line: options with and without values, by their long names or by one
letter, and what is not an option. Arguments are read from left to right, and the first fault, or
the first option that asks for help or for the version, ends the reading. -/

namespace EngineTrials

/-- What an option does. -/
inductive OptionKind
  | flag
  /-- A flag that may be repeated. -/
  | count
  /-- An option with a value that satisfies a check. -/
  | value (check : String → Bool)
  /-- An option with a value each time that it stands; the value may look like an option. -/
  | values (check : String → Bool) (takesAnything : Bool)
  | help
  | version

/-- An option. -/
structure OptionSpec where
  name : String
  letter : Option Char := none
  kind : OptionKind

/-- What is wrong with a command line. -/
inductive UsageFault
  | unknownOption (argument : String)
  | unexpectedValue (option : String)
  | missingValue (option : String)
  | invalidValue (option value : String)
  | repeated (option : String)
  | missingPaths
  | missingCommand
  | unknownCommand (name : String)
  deriving DecidableEq, Repr

def UsageFault.message : UsageFault → String
  | .unknownOption argument => "unexpected argument '" ++ argument ++ "'"
  | .unexpectedValue option => "unexpected value for '--" ++ option ++ "'"
  | .missingValue option => "a value is required for '--" ++ option ++ "'"
  | .invalidValue option value => "invalid value '" ++ value ++ "' for '" ++ option ++ "'"
  | .repeated option => "'--" ++ option ++ "' cannot be used more than once"
  | .missingPaths => "no path was given"
  | .missingCommand => "no command was given"
  | .unknownCommand name => "unrecognized command '" ++ name ++ "'"

/-- Why a command does not run. -/
inductive Stop
  | help
  | version
  | fault (f : UsageFault)
  deriving DecidableEq, Repr

/-- The arguments read so far. -/
structure Arguments where
  /-- The options in their order, each with its value; a flag's value is empty. -/
  options : List (String × String) := []
  /-- What is not an option. -/
  paths : List String := []
  /-- What has not been read. -/
  rest : List String := []
  deriving DecidableEq, Repr

namespace Arguments

def has (a : Arguments) (name : String) : Bool := a.options.any fun o => o.1 == name

def value? (a : Arguments) (name : String) : Option String := a.options.lookup name

/-- The values of an option that may be repeated. -/
def values (a : Arguments) (name : String) : List String :=
  (a.options.filter fun o => o.1 == name).map Prod.snd

/-- The number that a text spells: digits, perhaps after a plus sign, at most 64 bits. -/
def numberOf? (text : String) : Option Nat :=
  Json.countOfNumeral? (String.ofList (match text.toList with
    | '+' :: digits => digits
    | digits => digits))

def isNumber (text : String) : Bool := (numberOf? text).isSome

def isPath (text : String) : Bool := !text.isEmpty

def isAny (_ : String) : Bool := true

/-- The number that is the value of an option. -/
def number? (a : Arguments) (name : String) : Option Nat := (a.value? name).bind numberOf?

def looksLikeOption (argument : String) : Bool :=
  match argument.toList with
  | '-' :: _ :: _ => true
  | _ => false

def addFlag (a : Arguments) (spec : OptionSpec) : Except Stop Arguments :=
  match spec.kind with
  | .help => .error .help
  | .version => .error .version
  | .flag =>
    if a.has spec.name then .error (.fault (.repeated spec.name))
    else .ok { a with options := a.options ++ [(spec.name, "")] }
  | _ => .ok { a with options := a.options ++ [(spec.name, "")] }

/-- The arguments after an option with a value. -/
def addValue (a : Arguments) (spec : OptionSpec) (value : String) : Except Stop Arguments :=
  let added : Arguments := { a with options := a.options ++ [(spec.name, value)] }
  match spec.kind with
  | .value check =>
    if !check value then .error (.fault (.invalidValue spec.name value))
    else if a.has spec.name then .error (.fault (.repeated spec.name))
    else .ok added
  | .values check _ =>
    if check value then .ok added else .error (.fault (.invalidValue spec.name value))
  | _ => .error (.fault (.unexpectedValue spec.name))

def takesValue (spec : OptionSpec) : Bool :=
  match spec.kind with
  | .value _ | .values _ _ => true
  | _ => false

/-- Whether the argument after an option can be its value. -/
def canBeValue (spec : OptionSpec) (argument : String) : Bool :=
  match spec.kind with
  | .values _ true => true
  | _ => !looksLikeOption argument

/-- Reads letters after a dash: the arguments after them, and the option that still wants its value
from the next argument. -/
def addLetters (specs : List OptionSpec) (argument : String) :
    List Char → Arguments → Except Stop (Arguments × Option OptionSpec)
  | [], a => .ok (a, none)
  | letter :: more, a =>
    match specs.find? fun spec => spec.letter == some letter with
    | none => .error (.fault (.unknownOption argument))
    | some spec =>
      if takesValue spec then
        match more with
        | [] => .ok (a, some spec)
        | '=' :: value => (a.addValue spec (String.ofList value)).map (·, none)
        | value => (a.addValue spec (String.ofList value)).map (·, none)
      else (a.addFlag spec).bind (addLetters specs argument more)

/-- Reads the name of an option after two dashes, with a value after an equals sign: the arguments
after it, and the option that still wants its value from the next argument. -/
def addLong (specs : List OptionSpec) (argument : String) (text : List Char) (a : Arguments) :
    Except Stop (Arguments × Option OptionSpec) :=
  let name := String.ofList (text.takeWhile (· != '='))
  match specs.find? fun spec => spec.name == name with
  | none => .error (.fault (.unknownOption argument))
  | some spec =>
    match text.dropWhile (· != '=') with
    | _ :: value => (a.addValue spec (String.ofList value)).map (·, none)
    | [] =>
      if takesValue spec then .ok (a, some spec) else (a.addFlag spec).map (·, none)

def addPaths (a : Arguments) (paths : List String) : Except Stop Arguments :=
  match paths.find? fun path => !isPath path with
  | some path => .error (.fault (.invalidValue "paths" path))
  | none => .ok { a with paths := a.paths ++ paths }

/-- Reads arguments. With `toCommand` the reading ends before the first one that is not an option.
`wanting` is the option that takes its value from the next argument. -/
def read (specs : List OptionSpec) (toCommand : Bool) :
    List String → Option OptionSpec → Arguments → Except Stop Arguments
  | [], none, a => .ok a
  | [], some spec, _ => .error (.fault (.missingValue spec.name))
  | argument :: rest, some spec, a =>
    if canBeValue spec argument then
      (a.addValue spec argument).bind (read specs toCommand rest none)
    else .error (.fault (.missingValue spec.name))
  | argument :: rest, none, a =>
    match argument.toList with
    | ['-', '-'] => a.addPaths rest
    | '-' :: '-' :: text =>
      (addLong specs argument text a).bind fun r => read specs toCommand rest r.2 r.1
    | '-' :: letter :: letters =>
      (addLetters specs argument (letter :: letters) a).bind fun r =>
        read specs toCommand rest r.2 r.1
    | _ =>
      if toCommand then .ok { a with rest := argument :: rest }
      else (a.addPaths [argument]).bind (read specs toCommand rest none)

end Arguments

end EngineTrials

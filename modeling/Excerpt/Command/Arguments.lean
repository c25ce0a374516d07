import Excerpt.Config
import Excerpt.Number.Numeral

/-! Command line arguments. A flag that takes a value may be given several times,
and no value is dropped then. A switch is on or off, and the last word counts. -/
namespace Excerpt

/-- A call of the command. -/
structure Invocation where
  input : String
  color : String
  tabWidth : Option Setting
  context : Option Setting
  elisionThreshold : Option Setting
  debug : Bool
  deriving DecidableEq, Repr

inductive UsageError where
  | missingInput
  | unexpected (argument : String)
  | unknownFlag (flag : String)
  | missingValue (flag : String)
  | notNumber (flag value : String)
  deriving DecidableEq, Repr

def UsageError.message : UsageError → String
  | missingInput => "missing input file"
  | unexpected argument => "unexpected argument " ++ argument
  | unknownFlag flag => "unknown flag " ++ flag
  | missingValue flag => "missing value of " ++ flag
  | notNumber flag value => "value of " ++ flag ++ " is not a number: " ++ value

namespace Invocation

/-- What has been given so far. -/
structure Given where
  input : Option String
  colors : List String
  tabWidth : Option Setting
  context : Option Setting
  elisionThreshold : Option Setting
  debug : Bool

def nothing : Given := ⟨none, [], none, none, none, false⟩

def defaultColor : String := "auto"

/-- A flag has a name behind two or more hyphens. -/
def isFlag (argument : String) : Bool :=
  match argument.toList with
  | '-' :: '-' :: cs =>
    match cs.dropWhile (· == '-') with
    | [] => false
    | c :: _ => c != '='
  | _ => false

/-- A minus with digits, and maybe a point between or before them. -/
def isNegative (argument : String) : Bool :=
  match argument.toList with
  | '-' :: cs =>
    match Decimal.spanDigits cs with
    | (_, '.' :: rest) =>
      let (fraction, rest) := Decimal.spanDigits rest
      !fraction.isEmpty && rest.isEmpty
    | (whole, rest) => !whole.isEmpty && rest.isEmpty
  | _ => false

/-- Whether an argument can be the value of the flag before it. -/
def isValue (argument : String) : Bool := argument.toList.head? != some '-' || isNegative argument

/-- Splits a flag at its first equals sign. -/
def splitFlag (argument : String) : String × Option String :=
  let cs := argument.toList
  let name := String.ofList (cs.takeWhile (· != '='))
  match cs.dropWhile (· != '=') with
  | _ :: value => (name, some (String.ofList value))
  | [] => (name, none)

/-- Drops two equal quotes around a text. -/
def unquoted (text : String) : String :=
  match text.toList with
  | quote :: c :: cs =>
    if (quote = '\x27' ∨ quote = '\x22') ∧ (c :: cs).getLast? = some quote then
      String.ofList (c :: cs).dropLast
    else text
  | _ => text

def number (flag value : String) : Except UsageError Number :=
  match Number.ofText? value with
  | some n => .ok n
  | none => .error (.notNumber flag value)

/-- An option after it is given one more value. -/
def setting (earlier : Option Setting) (value : Number) : Option Setting :=
  some (earlier.elim (.number value) (·.also value))

/-- Gives a flag a value, or a switch a state. -/
def set (given : Given) (flag value : String) : Except UsageError Given :=
  match flag with
  | "--color" => .ok { given with colors := given.colors ++ [value] }
  | "--tab-width" =>
    (number flag value).map fun n => { given with tabWidth := setting given.tabWidth n }
  | "--context" =>
    (number flag value).map fun n => { given with context := setting given.context n }
  | "--elision-threshold" =>
    (number flag value).map fun n =>
      { given with elisionThreshold := setting given.elisionThreshold n }
  | "--debug" => .ok { given with debug := value = "true" }
  | _ => .error (.unknownFlag flag)

/-- A flag without a value. -/
def setBare (given : Given) (flag : String) : Except UsageError Given :=
  match flag with
  | "--color" => set given flag defaultColor
  | "--debug" => set given flag "true"
  | "--no-debug" => set given "--debug" "false"
  | "--tab-width" | "--context" | "--elision-threshold" => .error (.missingValue flag)
  | _ => .error (.unknownFlag flag)

/-- Whether a flag takes the next argument as its value; a switch only takes a
word for on or off. -/
def takesNext (flag next : String) : Bool :=
  match flag with
  | "--debug" => next == "true" || next == "false"
  | "--no-debug" => false
  | _ => isValue next

def setInput (given : Given) (argument : String) : Except UsageError Given :=
  match given.input with
  | some _ => .error (.unexpected argument)
  | none => .ok { given with input := some argument }

/-- Takes the arguments from left to right. Two hyphens end the flags. -/
def take (given : Given) : List String → Except UsageError Given
  | [] => .ok given
  | argument :: rest =>
    if argument = "--" then rest.foldlM setInput given
    else if isFlag argument then
      match splitFlag argument, rest with
      | (flag, some value), rest =>
        match set given flag (unquoted value) with
        | .ok given => take given rest
        | .error e => .error e
      | (flag, none), next :: rest =>
        if takesNext flag next then
          match set given flag next with
          | .ok given => take given rest
          | .error e => .error e
        else
          match setBare given flag with
          | .ok given => take given (next :: rest)
          | .error e => .error e
      | (flag, none), [] => setBare given flag
    else
      match setInput given argument with
      | .ok given => take given rest
      | .error e => .error e

/-- The colors that were asked for, as one text. -/
def colorOf (colors : List String) : String :=
  if colors.isEmpty then defaultColor else ",".intercalate colors

/-- The call that some arguments make. -/
def ofArguments (arguments : List String) : Except UsageError Invocation :=
  match take nothing arguments with
  | .error e => .error e
  | .ok given =>
    match given.input with
    | none => .error .missingInput
    | some input => .ok {
        input
        color := colorOf given.colors
        tabWidth := given.tabWidth
        context := given.context
        elisionThreshold := given.elisionThreshold
        debug := given.debug }

end Invocation
end Excerpt

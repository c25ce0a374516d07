import Excerpt.Decimal.Text
import Excerpt.Number.Arithmetic

/-! Layout options. Every option may be left out; what is given has to be one
integer that is not too small. -/
namespace Excerpt

inductive ConfigOption where
  | tabWidth
  | contextLines
  | startContextLines
  | endContextLines
  | elisionThreshold
  deriving DecidableEq, Repr

def ConfigOption.name : ConfigOption → String
  | tabWidth => "tabWidth"
  | contextLines => "contextLines"
  | startContextLines => "startContextLines"
  | endContextLines => "endContextLines"
  | elisionThreshold => "elisionThreshold"

/-- What an option is set to: a number, or several numbers in one text. -/
inductive Setting where
  | number (value : Number)
  | several (text : String)
  deriving DecidableEq, Repr

namespace Setting

def toText : Setting → String
  | number value => value.toText
  | several text => text

/-- Sets an option once more. A one counts a number up and is written behind a
text; any other number is put behind a comma. -/
def also (earlier : Setting) (value : Number) : Setting :=
  match earlier with
  | number n =>
    if value = 1 then number (n + 1) else several (n.toText ++ "," ++ value.toText)
  | several text =>
    several (text ++ (if value = 1 then "" else ",") ++ value.toText)

end Setting

/-- Options as they are given; what is left out is `none`. -/
structure Settings where
  tabWidth : Option Setting
  /-- Lines shown before the first and after the last labelled line. -/
  contextLines : Option Setting
  /-- Takes the place of `contextLines` before the first labelled line. -/
  startContextLines : Option Setting
  /-- Takes the place of `contextLines` after the last labelled line. -/
  endContextLines : Option Setting
  elisionThreshold : Option Setting
  deriving DecidableEq, Repr

def Settings.empty : Settings := ⟨none, none, none, none, none⟩

/-- Options in force. -/
structure Config where
  tabWidth : Nat
  linesBefore : Nat
  linesAfter : Nat
  /-- Labels over more lines between their first and last one are elided. -/
  elisionThreshold : Nat
  tabWidth_pos : 0 < tabWidth := by decide
  deriving DecidableEq, Repr

def Config.standard : Config where
  tabWidth := 4
  linesBefore := 0
  linesAfter := 0
  elisionThreshold := 3

/-- An option that is set to several numbers, or to one that is no integer or is
less than `minimum`. -/
structure ConfigError where
  option : ConfigOption
  setting : Setting
  minimum : Nat
  deriving DecidableEq, Repr

def ConfigError.message (e : ConfigError) : String :=
  "invalid " ++ e.option.name ++ ": expected an integer >= " ++ Decimal.digits e.minimum ++
    ", got " ++ e.setting.toText

namespace Settings

/-- The value given for an option, which is an integer and not too small. -/
def check (option : ConfigOption) (minimum : Nat) (setting : Option Setting) :
    Except ConfigError (Option { n : Nat // minimum ≤ n }) :=
  match setting with
  | none => .ok none
  | some (.number value) =>
    match value.toNat? with
    | some n =>
      if h : minimum ≤ n then .ok (some ⟨n, h⟩) else .error ⟨option, .number value, minimum⟩
    | none => .error ⟨option, .number value, minimum⟩
  | some (.several text) => .error ⟨option, .several text, minimum⟩

/-- The options in force, or the first one that is refused. -/
def resolve (s : Settings) : Except ConfigError Config := do
  let tabWidth ← check .tabWidth 1 s.tabWidth
  let contextLines ← check .contextLines 0 s.contextLines
  let startContextLines ← check .startContextLines 0 s.startContextLines
  let endContextLines ← check .endContextLines 0 s.endContextLines
  let elisionThreshold ← check .elisionThreshold 0 s.elisionThreshold
  let tabWidth := tabWidth.getD ⟨Config.standard.tabWidth, Config.standard.tabWidth_pos⟩
  return {
    tabWidth := tabWidth.val
    linesBefore := (startContextLines.or contextLines).elim Config.standard.linesBefore (·.val)
    linesAfter := (endContextLines.or contextLines).elim Config.standard.linesAfter (·.val)
    elisionThreshold := elisionThreshold.elim Config.standard.elisionThreshold (·.val)
    tabWidth_pos := tabWidth.property }

end Settings
end Excerpt

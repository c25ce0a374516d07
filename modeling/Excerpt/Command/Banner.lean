import Excerpt.Text.Blank
import Excerpt.Text.Units

/-! The text shown when the command is called without arguments. -/
namespace Excerpt

structure FlagSummary where
  name : String
  /-- How the flag is written, if not by its name. -/
  flagName : Option String
  description : Option String
  deriving DecidableEq, Repr

namespace Banner

def option (flag : FlagSummary) : String := "--" ++ flag.flagName.getD flag.name

def flagLine (width : Nat) (flag : FlagSummary) : String :=
  Text.trimBlanks ("  " ++ Text.padEnd width (option flag) ++ "  " ++ flag.description.getD "")

def lines (version : String) (flags : List FlagSummary) : List String :=
  let width := flags.foldl (fun width flag => max width (Text.units16 (option flag))) 0
  ["gutter v" ++ version, "", "Usage: gutter render <input.json> [options]", "", "Options:"] ++
    flags.map (flagLine width) ++
    ["", "Run \"gutter --help\" for available commands and options."]

end Banner
end Excerpt

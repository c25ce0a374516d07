import Excerpt.Diagnostic
import Excerpt.Text.Template

/-! The catalog of the diagnostics the command itself reports. -/
namespace Excerpt

structure Definition where
  code : String
  severity : Severity
  /-- A template. -/
  message : String
  suggestion : Option String
  deriving DecidableEq, Repr

namespace Definition

/-- The diagnostic of a definition with its message filled in. Its suggestion
becomes a note as it stands. -/
def withMessage (d : Definition) (message : String) : Diagnostic where
  severity := d.severity
  code := some d.code
  message := message
  labels := []
  notes := (d.suggestion.map fun text => "help: " ++ text).toList

/-- The diagnostic of a definition. Without arguments its message is no template. -/
def diagnostic (d : Definition) (arguments : Option (List (String × Template.Argument))) :
    Diagnostic :=
  d.withMessage (arguments.elim d.message (fillTemplate d.message))

/-- The diagnostic of a definition, if there is a text as long as its message. -/
def diagnostic? (d : Definition) (arguments : Option (List (String × Template.Argument))) :
    Except TextFault Diagnostic :=
  d.withMessage <$> arguments.elim (.ok d.message) (fillTemplate? d.message)

end Definition

namespace Catalog

def fileNotFound : Definition where
  code := "GTCLI001"
  severity := .error
  message := "file not found: \x7bpath\x7d"
  suggestion := some "Double-check the path and make sure the file exists."

def unreadableFile : Definition where
  code := "GTCLI002"
  severity := .error
  message := "cannot read file: \x7breason\x7d"
  suggestion := some "Check that you have read permission for this file."

def invalidInput : Definition where
  code := "GTCLI003"
  severity := .error
  message := "invalid input at \x7bpath\x7d: \x7breason\x7d"
  suggestion := some "The input must be a JSON object with a `diagnostics` array."

def unknownColorMode : Definition where
  code := "GTCLI004"
  severity := .error
  message := "unknown color mode \"\x7bmode\x7d\""
  suggestion := some "Use `--color auto`, `--color always` or `--color never`."

def invalidOption : Definition where
  code := "GTCLI005"
  severity := .error
  message := "invalid option: \x7breason\x7d"
  suggestion := none

def renderFailure : Definition where
  code := "GTCLI006"
  severity := .error
  message := "cannot render diagnostic #\x7bindex\x7d: \x7breason\x7d"
  suggestion := some "Check that every label span lies inside its file."

def all : List Definition :=
  [fileNotFound, unreadableFile, invalidInput, unknownColorMode, invalidOption, renderFailure]

def ofCode? (code : String) : Option Definition := all.find? (·.code == code)

end Catalog
end Excerpt

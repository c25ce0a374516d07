import Excerpt.Catalog
import Excerpt.Fault

/-! Problems of a run, which are reported as diagnostics themselves. -/
namespace Excerpt

inductive Problem where
  | colorMode (mode : String)
  | option (reason : String)
  | unreadable (path : String) (fault : Fault)
  | input (path reason : String)
  /-- The place of a diagnostic in its input, counted from 1, and why it failed. -/
  | render (index : Number) (reason : String)
  deriving DecidableEq, Repr

namespace Problem

/-- A file that is missing is told apart from one that cannot be read. -/
def diagnostic : Problem → Diagnostic
  | colorMode mode => Catalog.unknownColorMode.diagnostic (some [("mode", .text mode)])
  | option reason => Catalog.invalidOption.diagnostic (some [("reason", .text reason)])
  | unreadable path fault =>
    if fault.code? = some "ENOENT" then
      Catalog.fileNotFound.diagnostic (some [("path", .text path)])
    else Catalog.unreadableFile.diagnostic (some [("reason", .text fault.message)])
  | input path reason =>
    Catalog.invalidInput.diagnostic (some [("path", .text path), ("reason", .text reason)])
  | render index reason =>
    Catalog.renderFailure.diagnostic (some [("index", .number index), ("reason", .text reason)])

end Problem

/-- A diagnostic on one line, for when it cannot be rendered. -/
def Diagnostic.summary (d : Diagnostic) : String :=
  match d.code with
  | some code => "[" ++ code ++ "] " ++ d.message
  | none => d.message

end Excerpt

import Excerpt.Command.Banner
import Excerpt.Command.Render
import Excerpt.Device.Descriptor
import Excerpt.FileTree

/-! The command line: renders the diagnostics of a JSON file on the standard error
stream, or says what the command is for. -/
namespace Excerpt.Main

def version : String := "0.1.0"

def flags : List FlagSummary :=
  [⟨"color", some "color", some "Color output: auto, always or never"⟩,
   ⟨"tabWidth", some "tab-width", some "Tab stop width (default 4)"⟩,
   ⟨"context", some "context", some "Context lines around labelled lines (default 0)"⟩,
   ⟨"elisionThreshold", some "elision-threshold",
     some "Interior lines after which multi-line spans are elided (default 3)"⟩,
   ⟨"debug", some "debug", some "Log the document tree of each diagnostic"⟩]

def faultOf (error : IO.Error) : Fault :=
  match error with
  | .noFileOrDirectory .. => .error (toString error) (some "ENOENT")
  | error => .error (toString error) none

def read (path : String) : IO (Except Fault String) := do
  try
    let bytes ← IO.FS.readBinFile path
    return .ok ((String.fromUTF8? bytes).getD (Utf8.decode bytes.toList))
  catch error => return .error (faultOf error)

/-- Reads the input and the files it names, so that the run itself needs no IO. -/
def readAll (i : Invocation) : IO Command.FileSystem := do
  let input ← read i.input
  let mut entries := [(i.input, input)]
  if let .ok text := input then
    if let .ok inputs := parseInput text then
      for path in sourcePaths inputs do
        let path := Path.resolve (Path.directory i.input) path
        entries := entries ++ [(path, ← read path)]
  let known := entries
  return fun path => (known.lookup path).getD (.error (FileTree.notFound path))

def render (i : Invocation) : IO UInt32 := do
  let files ← readAll i
  let session := Command.run Sink.descriptor Descriptor.ready .none files i
  let stderr ← IO.getStderr
  stderr.write ⟨session.device.sink.content⟩
  for entry in session.log do
    match entry with
    | .info text => IO.println s!"[ info ] {text.toText}"
    | .error text => IO.eprintln s!"[ error ] {text}"
  return session.exitCode.elim 0 UInt32.ofNat

end Excerpt.Main

def main (arguments : List String) : IO UInt32 := do
  match arguments with
  | "render" :: arguments =>
    match Excerpt.Invocation.ofArguments arguments with
    | .ok i => Excerpt.Main.render i
    | .error e =>
      IO.eprintln e.message
      return 1
  | _ =>
    for line in Excerpt.Banner.lines Excerpt.Main.version Excerpt.Main.flags do
      IO.println line
    return 0

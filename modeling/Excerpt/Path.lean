/-! Paths of files, as texts with parts between slashes. -/
namespace Excerpt.Path

def isAbsolute (path : String) : Bool := path.toList.head? == some '/'

/-- The parts of a path. Slashes at its ends and doubled ones make empty parts. -/
def parts (path : String) : List String := (path.toList.splitOn '/').map String.ofList

def ofParts (absolute : Bool) (parts : List String) : String :=
  (if absolute then "/" else "") ++ "/".intercalate parts

/-- The path of the directory something is in. -/
def directory (path : String) : String :=
  let isSlash (c : Char) : Bool := c == '/'
  let kept := ((path.toList.reverse.dropWhile isSlash).dropWhile (!isSlash ·)).dropWhile isSlash
  if kept.isEmpty then if isAbsolute path then "/" else "."
  else String.ofList kept.reverse

/-- Adds a part: an empty one and `.` change nothing, `..` takes a part away. -/
def step (absolute : Bool) (before : List String) (part : String) : List String :=
  if part = "" ∨ part = "." then before
  else if part = ".." then
    match before.getLast? with
    | none => if absolute then [] else [".."]
    | some ".." => before ++ [".."]
    | some _ => before.dropLast
  else before ++ [part]

/-- Parts without those that can be left out. -/
def reduce (absolute : Bool) (parts : List String) : List String := parts.foldl (step absolute) []

/-- A path seen from a directory, without parts that can be left out. -/
def resolve (base path : String) : String :=
  let (absolute, parts) :=
    if isAbsolute path then (true, parts path)
    else (isAbsolute base, parts base ++ parts path)
  let kept := reduce absolute parts
  if kept.isEmpty then if absolute then "/" else "." else ofParts absolute kept

end Excerpt.Path

import Excerpt.Fault
import Excerpt.Path

/-! Trees of text files, read by paths from their root. -/
namespace Excerpt

/-- The files and directories of a tree, named by their paths from its root. The
directories that lead to a file need not be listed. -/
structure FileTree where
  files : List (String × String)
  directories : List String

namespace FileTree

def notFound (path : String) : Fault :=
  .error ("ENOENT: no such file or directory, open '" ++ path ++ "'") (some "ENOENT")

def notDirectory (path : String) : Fault :=
  .error ("ENOTDIR: not a directory, open '" ++ path ++ "'") (some "ENOTDIR")

def nameTooLong (path : String) : Fault :=
  .error ("ENAMETOOLONG: name too long, open '" ++ path ++ "'") (some "ENAMETOOLONG")

def isDirectoryFault : Fault :=
  .error "EISDIR: illegal operation on a directory, read" (some "EISDIR")

/-- The most bytes a part of a path may have. -/
def nameLimit : Nat := 255

/-- The most bytes a path may have. -/
def pathLimit : Nat := 4095

/-- The parts that lead from the root to the place of a path. -/
def place (path : String) : List String := Path.reduce false (Path.parts path)

/-- The text of the file with some parts; of several files in one place the last
one counts. -/
def file? (tree : FileTree) (parts : List String) : Option String :=
  (tree.files.reverse.find? fun file => place file.1 == parts).map (·.2)

def isDirectory (tree : FileTree) (parts : List String) : Bool :=
  let known := tree.directories.map place ++ tree.files.map fun file => (place file.1).dropLast
  parts.isEmpty || known.any fun directory => parts.isPrefixOf directory

/-- Walks from a directory. What lies above the root is `none`: nothing in it is
known, and no way leads back from it. -/
def walk (tree : FileTree) (path : String) (here : Option (List String)) :
    List String → Except Fault (Option (List String))
  | [] => .ok here
  | part :: rest =>
    if part = "" ∨ part = "." then walk tree path here rest
    else if part = ".." then
      let parent := here.bind fun parts => if parts.isEmpty then none else some parts.dropLast
      walk tree path parent rest
    else if nameLimit < part.utf8ByteSize then .error (nameTooLong path)
    else
      match here with
      | none => .error (notFound path)
      | some parts =>
        let there := parts ++ [part]
        if rest.isEmpty ∨ tree.isDirectory there then walk tree path (some there) rest
        else if (tree.file? there).isSome then .error (notDirectory path)
        else .error (notFound path)

def read (tree : FileTree) (path : String) : Except Fault String :=
  if path = "" then .error (notFound path)
  else if pathLimit < path.utf8ByteSize then .error (nameTooLong path)
  else do
    let start := if Path.isAbsolute path then none else some []
    match ← tree.walk path start (Path.parts path) with
    | none => throw isDirectoryFault
    | some parts =>
      match tree.file? parts with
      | some text => return text
      | none => throw (if tree.isDirectory parts then isDirectoryFault else notFound path)

end FileTree
end Excerpt

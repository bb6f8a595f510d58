import UriExpansion.Keyed

/-!
# Trees of files

A path is followed from a working directory piece by piece. Only a directory can be left or entered
further, and outside of the tree there are only directories without entries.
-/

namespace UriExpansion

inductive FileError
  | system (text : String) (code : Nat)
  | zeroInName
  | notText
  deriving DecidableEq

namespace FileError

def notFound : FileError := .system "No such file or directory" 2

def notDirectory : FileError := .system "Not a directory" 20

def isDirectory : FileError := .system "Is a directory" 21

def nameTooLong : FileError := .system "File name too long" 36

def message : FileError → String
  | .system text code => s!"{text} (os error {code})"
  | .zeroInName => "file name contained an unexpected NUL byte"
  | .notText => "stream did not contain valid UTF-8"

end FileError

inductive FileTree
  | file (contents : ByteArray)
  | directory (entries : List (String × FileTree))

namespace FileTree

def empty : FileTree := .directory []

def insert : FileTree → List String → FileTree → FileTree
  | _, [], new => new
  | .directory entries, name :: names, new =>
    .directory (Keyed.insert entries name (insert ((entries.lookup name).getD empty) names new))
  | .file contents, _ :: _, _ => .file contents

structure Located where
  here : FileTree
  above : List FileTree

def longestName : Nat := 255

def longestPath : Nat := 4095

def Located.follow (l : Located) (piece : String) : Except FileError Located :=
  match l.here with
  | .file _ => .error .notDirectory
  | .directory entries =>
    if piece = "" ∨ piece = "." then .ok l
    else if piece = ".." then
      match l.above with
      | [] => .ok ⟨empty, []⟩
      | parent :: rest => .ok ⟨parent, rest⟩
    else if longestName < piece.utf8ByteSize then .error .nameTooLong
    else
      match entries.lookup piece with
      | some t => .ok ⟨t, l.here :: l.above⟩
      | none => .error .notFound

def splitPath (path : String) : List String :=
  (path.toList.splitOn '/').map String.ofList

/-- The contents of the file at a path. An absolute path begins outside of the tree. -/
def read (t : FileTree) (path : String) : Except FileError ByteArray :=
  if path.contains '\x00' then .error .zeroInName
  else if path.isEmpty then .error .notFound
  else if longestPath < path.utf8ByteSize then .error .nameTooLong
  else do
    let start : Located := if path.startsWith "/" then ⟨empty, []⟩ else ⟨t, []⟩
    let reached ← (splitPath path).foldlM Located.follow start
    match reached.here with
    | .file contents => .ok contents
    | .directory _ => .error .isDirectory

end FileTree

end UriExpansion

import UriExpansion.Json.Store
import UriExpansion.ParamFile.FileTree
import UriExpansion.Yaml.Store

/-!
# Loading parameters

A store is loaded from the text of a document, or from a file whose name decides the format: an
extension `json`, in either case, means JSON, and everything else YAML.
-/

namespace UriExpansion

inductive ParamFormat
  | yaml
  | json
  deriving DecidableEq

namespace ParamPath

def fileName? (path : String) : Option (List Char) :=
  ((path.toList.splitOn '/').filter fun p => p ≠ [] ∧ p ≠ ['.']).getLast?.filter (· ≠ ['.', '.'])

def extension? (name : List Char) : Option (List Char) :=
  let extension := (name.reverse.takeWhile (· ≠ '.')).reverse
  if extension.length + 1 < name.length then some extension else none

end ParamPath

namespace ParamFormat

def ofPath (path : String) : ParamFormat :=
  match (ParamPath.fileName? path).bind ParamPath.extension? with
  | some extension => if extension.map Char.toLower = ['j', 's', 'o', 'n'] then .json else .yaml
  | none => .yaml

end ParamFormat

inductive LoadError
  | unreadable (e : FileError)
  | yaml (e : Yaml.Error)
  | json (e : Json.Error)

namespace LoadError

def cause : LoadError → String
  | .unreadable e => e.message
  | .yaml e => e.message
  | .json e => e.message

def attempt : LoadError → String
  | .unreadable _ => "Could not read parameter file"
  | .yaml _ => "Invalid YAML parameters"
  | .json _ => "Invalid JSON parameters"

def message (e : LoadError) : String :=
  e.attempt ++ ": " ++ e.cause

end LoadError

namespace Store

def parseChanges (text : String) : ParamFormat → Except LoadError (List Change)
  | .yaml => (Yaml.parseChanges text).mapError .yaml
  | .json => (Json.parseChanges text).mapError .json

def parse (text : String) (format : ParamFormat) : Except LoadError Store :=
  (parseChanges text format).map (replay ∅)

def decode (contents : ByteArray) : Except FileError String :=
  match String.fromUTF8? contents with
  | some text => .ok text
  | none => .error .notText

def ofFile (path : String) (contents : Except FileError ByteArray) : Except LoadError Store :=
  match contents.bind decode with
  | .ok text => parse text (.ofPath path)
  | .error e => .error (.unreadable e)

end Store

end UriExpansion

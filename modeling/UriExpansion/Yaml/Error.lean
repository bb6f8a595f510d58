import UriExpansion.Params
import UriExpansion.Text.Quoted
import UriExpansion.Yaml.Scalar

/-!
# Faults of YAML documents

A fault is shown with the path to its node and with its line and column, unless it concerns the
first character or the text as a whole. A text that is no YAML is reported by one wording of this
library's own, where a parser of YAML says what is wrong and where; the two reports differ.
-/

namespace UriExpansion

namespace Yaml

inductive Path
  | root
  | item (parent : Path) (index : Nat)
  | member (parent : Path) (key : String)
  | unnamed (parent : Path)

namespace Path

def isRoot : Path → Bool
  | .root => true
  | _ => false

def text : Path → String
  | .root => "."
  | .item parent index => parent.text ++ "[" ++ natText index ++ "]"
  | .member parent key => (if parent.isRoot then "" else parent.text ++ ".") ++ key
  | .unnamed parent => (if parent.isRoot then "" else parent.text ++ ".") ++ "?"

end Path

inductive Found
  | null
  | bool (b : Bool)
  | int (n : Int)
  | wide (n : Int)
  | float (x : Binary64)
  | string (s : String)
  | sequence
  | mapping
  | variant
  | absent

namespace Found

def ofMeaning : Meaning → Found
  | .null => .null
  | .bool b => .bool b
  | .int n => .int n
  | .wide n => .wide n
  | .float x => .float x
  | .text s => .string s

def floatText (x : Binary64) : String :=
  let text := NumberLayout.plain.text x
  if x.isFinite && !text.contains '.' then text ++ ".0" else text

def description : Found → String
  | .null => "unit value"
  | .bool b => "boolean `" ++ boolText b ++ "`"
  | .int n => "integer `" ++ intText n ++ "`"
  | .wide n => "integer `" ++ intText n ++ "` as " ++ (if n < 0 then "i128" else "u128")
  | .float x => "floating point `" ++ floatText x ++ "`"
  | .string s => "string " ++ quoted s
  | .sequence => "sequence"
  | .mapping => "map"
  | .variant => "enum"
  | .absent => "Option value"

end Found

inductive Cause
  | mismatch (found : Found) (wanted : Shape)
  | unmet (text : String) (demand : CoreTag)
  | unknownAnchor
  | tooManyJumps
  | severalDocuments
  | malformed

namespace Cause

def message : Cause → String
  | .mismatch found wanted =>
    "invalid type: " ++ found.description ++ ", expected " ++ wanted.description
  | .unmet text demand => "invalid value: string " ++ quoted text ++ ", expected " ++ demand.demand
  | .unknownAnchor => "unknown anchor"
  | .tooManyJumps => "repetition limit exceeded"
  | .severalDocuments =>
    "deserializing from YAML containing more than one document is not supported"
  | .malformed => "malformed YAML"

end Cause

structure Error where
  cause : Cause
  path : Path
  mark : Option Mark

namespace Error

def ofCause (cause : Cause) : Error := ⟨cause, .root, none⟩

/-- Gives a place to an error about a node that has none. -/
def locate (mark : Mark) (path : Path) (e : Error) : Error :=
  match e.cause, e.mark with
  | .mismatch _ _, none | .unmet _ _, none => { e with mark := some mark, path }
  | _, _ => e

def placeText (m : Mark) : String :=
  if m.line = 0 ∧ m.column = 0 then ""
  else " at line " ++ natText (m.line + 1) ++ " column " ++ natText (m.column + 1)

/-- A path that reads like the root's is left out. -/
def message (e : Error) : String :=
  let path := e.path.text
  (if path = Path.root.text then "" else path ++ ": ") ++ e.cause.message ++
    (e.mark.map placeText).getD ""

end Error

end Yaml

end UriExpansion

import UriExpansion.Json.Basic
import UriExpansion.Json.Cursor
import UriExpansion.Params
import UriExpansion.Text.Quoted

/-!
# Faults of JSON documents

A document is refused because its text is not JSON or because it holds something else than expected
at some place.
-/

namespace UriExpansion

namespace Json

inductive Found
  | null
  | bool (b : Bool)
  | number (n : JsonNumber)
  | string (s : String)
  | sequence
  | mapping
  deriving DecidableEq

namespace Found

def numberText : JsonNumber → String
  | .float sign x => "floating point `" ++ (JsonNumber.float sign x).jsonText ++ "`"
  | n => "integer `" ++ n.toScalar.canonical ++ "`"

def description : Found → String
  | .null => "null"
  | .bool b => "boolean `" ++ boolText b ++ "`"
  | .number n => numberText n
  | .string s => "string " ++ quoted s
  | .sequence => "sequence"
  | .mapping => "map"

end Found

inductive Cause
  | malformed (fault : SyntaxFault)
  | mismatch (found : Found) (wanted : Shape)
  deriving DecidableEq

namespace Cause

def message : Cause → String
  | .malformed fault => fault.message
  | .mismatch found wanted =>
    "invalid type: " ++ found.description ++ ", expected " ++ wanted.description

end Cause

structure Fault where
  cause : Cause
  offset : Nat
  deriving DecidableEq

/-- A fault as it is reported; a document that was read before has no places. -/
structure Error where
  cause : Cause
  position : Option Position
  deriving DecidableEq

namespace Error

def message (e : Error) : String :=
  e.cause.message ++ (e.position.map Position.suffix).getD ""

end Error

namespace Fault

def locate (text : String) (f : Fault) : Error :=
  ⟨f.cause, some (.ofOffset text f.offset)⟩

end Fault

abbrev Reader (α : Type) := Cursor → Except Fault (α × Cursor)

namespace Cursor

def fail {α : Type} (c : Cursor) (fault : SyntaxFault) : Except Fault α :=
  .error ⟨.malformed fault, c.offset⟩

def failAhead {α : Type} (c : Cursor) (fault : SyntaxFault) : Except Fault α :=
  .error ⟨.malformed fault, c.ahead⟩

def failNext {α : Type} (c : Cursor) (fault : SyntaxFault) : Except Fault α :=
  .error ⟨.malformed fault, c.offset + 1⟩

def mismatch {α : Type} (c : Cursor) (found : Found) (wanted : Shape) : Except Fault α :=
  .error ⟨.mismatch found wanted, c.offset⟩

end Cursor

end Json

end UriExpansion

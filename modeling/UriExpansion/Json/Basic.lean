import UriExpansion.Keyed
import UriExpansion.Params

/-!
# JSON documents

A document keeps the members of an object in order, each key once. Numbers are integers of 64 bits
or finite doubles. Any document but `null` can be bound to a name. Texts are taken as they are;
other data inside an array or an object becomes its compact JSON text.
-/

namespace UriExpansion

inductive JsonNumber
  | natural (n : Nat)
  /-- The integer `-(n + 1)`. -/
  | negative (n : Nat)
  | float (sign : Bool) (magnitude : Magnitude)
  deriving DecidableEq

inductive Json
  | null
  | bool (b : Bool)
  | number (n : JsonNumber)
  | string (s : String)
  | array (items : List Json)
  | object (members : List (String × Json))

namespace JsonNumber

def toScalar : JsonNumber → Scalar
  | .natural n => .int n
  | .negative n => .int (-(n + 1))
  | .float sign x => .float (.finite sign x)

def jsonText : JsonNumber → String
  | .float sign x => NumberLayout.json.text (.finite sign x)
  | n => n.toScalar.canonical

end JsonNumber

namespace Json

def ofMembers (members : List (String × Json)) : Json :=
  .object (Keyed.dedup members)

def escapedChar (c : Char) : List Char :=
  match c with
  | '"' => ['\\', '"']
  | '\\' => ['\\', '\\']
  | '\x08' => ['\\', 'b']
  | '\t' => ['\\', 't']
  | '\n' => ['\\', 'n']
  | '\x0c' => ['\\', 'f']
  | '\r' => ['\\', 'r']
  | c =>
    if c < ' ' then
      ['\\', 'u', '0', '0', Nat.digitChar (c.toNat / 16), Nat.digitChar (c.toNat % 16)]
    else [c]

def stringText (s : String) : String :=
  String.ofList ('"' :: s.toList.flatMap escapedChar ++ ['"'])

mutual

def compact : Json → String
  | .null => "null"
  | .bool b => boolText b
  | .number n => n.jsonText
  | .string s => stringText s
  | .array items => "[" ++ ",".intercalate (compactItems items) ++ "]"
  | .object members => "\x7b" ++ ",".intercalate (compactMembers members) ++ "\x7d"

def compactItems : List Json → List String
  | [] => []
  | j :: js => compact j :: compactItems js

def compactMembers : List (String × Json) → List String
  | [] => []
  | (key, j) :: ms => (stringText key ++ ":" ++ compact j) :: compactMembers ms

end

def memberText : Json → String
  | .string s => s
  | j => j.compact

def value? : Json → Option Value
  | .null => none
  | .array items => some (.list (items.map memberText))
  | .object members => some (.map (members.map fun (key, j) => (key, j.memberText)))
  | j => some (.str j.memberText)

end Json

namespace Store

def bindJson (s : Store) (name : String) (j : Json) : Store :=
  s.apply (.ofOption name j.value?)

end Store

end UriExpansion

import UriExpansion.Json.Reading
import UriExpansion.Params

/-!
# Parameters in JSON

A parameter document is an object. Each member is `null`, a scalar, an array of scalars or an object
of scalars. It can be taken from a document, or read from a text directly; then the members act on
the store in the order of the text, and repeated keys of a value are kept.
-/

namespace UriExpansion

namespace Json

def scalarText? : Json → Option String
  | .string s => some s
  | .bool b => some (boolText b)
  | .number n => some n.toScalar.canonical
  | .null | .array _ | .object _ => none

def found : Json → Found
  | .null => .null
  | .bool b => .bool b
  | .number n => .number n
  | .string s => .string s
  | .array _ => .sequence
  | .object _ => .mapping

def changes (members : List (String × Option Value)) : List Change :=
  members.map fun (name, value) => .ofOption name value

def mismatch {α : Type} (j : Json) (wanted : Shape) : Except Error α :=
  .error ⟨.mismatch j.found wanted, none⟩

def toScalar (wanted : Shape) (j : Json) : Except Error String :=
  match j.scalarText? with
  | some text => .ok text
  | none => j.mismatch wanted

def toPair (wanted : Shape) : String × Json → Except Error (String × String)
  | (key, j) => (j.toScalar wanted).map (key, ·)

def toValue : Json → Except Error Value
  | .array items => (items.mapM (toScalar .scalar)).map .list
  | .object members => (members.mapM (toPair .scalar)).map .map
  | j => (j.toScalar .value).map .str

def toMember : String × Json → Except Error (String × Option Value)
  | (name, .null) => .ok (name, none)
  | (name, j) => j.toValue.map fun value => (name, some value)

def toChanges : Json → Except Error (List Change)
  | .object members => (members.mapM toMember).map changes
  | j => j.mismatch .store

def toStore (j : Json) : Except Error Store :=
  j.toChanges.map (Store.replay ∅)

def readScalar (wanted : Shape) (c : Cursor) : Except Fault (String × Cursor) :=
  let c := c.skipBlank
  match readScalar? c with
  | some reading => do
    let (j, c) ← reading
    match j.scalarText? with
    | some text => .ok (text, c)
    | none => c.mismatch j.found wanted
  | none =>
    match c.rest with
    | [] => c.failAhead .endInValue
    | '[' :: _ => (leaveArray c.next).mismatch .sequence wanted
    | '\x7b' :: _ => (leaveObject c.next).mismatch .mapping wanted
    | _ => c.failAhead .expectedValue

def readParam (c : Cursor) : Except Fault (Value × Cursor) :=
  let c := c.skipBlank
  match c.rest with
  | '[' :: _ => (readArray (readScalar .scalar) c.next).map fun (items, c) => (.list items, c)
  | '\x7b' :: _ => (readObject (readScalar .scalar) c.next).map fun (ps, c) => (.map ps, c)
  | _ => (readScalar .value c).map fun (text, c) => (.str text, c)

def readOptional (c : Cursor) : Except Fault (Option Value × Cursor) :=
  let c := c.skipBlank
  match c.rest with
  | 'n' :: _ => (readWord ['u', 'l', 'l'] c.next).map (none, ·)
  | _ => (readParam c).map fun (value, c) => (some value, c)

def readChanges (c : Cursor) : Except Fault (List Change × Cursor) :=
  let c := c.skipBlank
  match c.rest with
  | '\x7b' :: _ => (readObject readOptional c.next).map fun (ms, c) => (changes ms, c)
  | '[' :: _ => c.mismatch .sequence .store
  | [] => c.failAhead .endInValue
  | _ =>
    match readScalar? c with
    | some reading => do
      let (j, c) ← reading
      c.mismatch j.found .store
    | none => c.failAhead .expectedValue

def parseChanges (text : String) : Except Error (List Change) :=
  readText readChanges text

end Json

namespace Value

def parseJson (text : String) : Except Json.Error Value :=
  Json.readText Json.readParam text

end Value

end UriExpansion

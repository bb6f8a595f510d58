import UriExpansion.Json.NumberLiteral
import UriExpansion.Json.StringLiteral

/-!
# Reading JSON documents

The elements of an array and the members of an object are read by the same steps whatever the
elements are, so the readers take the reader of an element. Documents nest at most `127` deep.
-/

namespace UriExpansion

namespace Json

variable {α : Type}

def readWord : List Char → Cursor → Except Fault Cursor
  | [], c => .ok c
  | x :: xs, c =>
    match c.rest with
    | [] => c.fail .endInValue
    | y :: _ => if y = x then readWord xs c.next else c.failNext .expectedWord

/-- Elements from the next one on, up to the closing bracket. Every element takes a character, so
the fuel is the number of characters. -/
def readElements (element : Reader α) : Nat → Reader (List α)
  | 0, c => c.failAhead .endInList
  | fuel + 1, c => do
    let (x, c) ← element c
    let c := c.skipBlank
    match c.rest with
    | [] => c.failAhead .endInList
    | ']' :: _ => .ok ([x], c.next)
    | ',' :: _ =>
      let c := c.next.skipBlank
      match c.rest with
      | [] => c.failAhead .endInValue
      | ']' :: _ => c.failAhead .trailingComma
      | _ => do
        let (xs, c) ← readElements element fuel c
        .ok (x :: xs, c)
    | _ => c.failAhead .expectedCommaOrBracket

def readArray (element : Reader α) (c : Cursor) : Except Fault (List α × Cursor) :=
  let c := c.skipBlank
  match c.rest with
  | [] => c.failAhead .endInList
  | ']' :: _ => .ok ([], c.next)
  | _ => readElements element c.rest.length c

def readColon (c : Cursor) : Except Fault Cursor :=
  let c := c.skipBlank
  match c.rest with
  | [] => c.failAhead .endInObject
  | ':' :: _ => .ok c.next
  | _ => c.failAhead .expectedColon

def readMember (value : Reader α) (c : Cursor) : Except Fault ((String × α) × Cursor) := do
  let (key, c) ← readString c
  let c ← readColon c
  let (x, c) ← value c
  .ok ((key, x), c)

def readMembers (value : Reader α) : Nat → Reader (List (String × α))
  | 0, c => c.failAhead .endInObject
  | fuel + 1, c => do
    let (m, c) ← readMember value c.next
    let c := c.skipBlank
    match c.rest with
    | [] => c.failAhead .endInObject
    | '\x7d' :: _ => .ok ([m], c.next)
    | ',' :: _ =>
      let c := c.next.skipBlank
      match c.rest with
      | [] => c.failAhead .endInValue
      | '"' :: _ => do
        let (ms, c) ← readMembers value fuel c
        .ok (m :: ms, c)
      | '\x7d' :: _ => c.failAhead .trailingComma
      | _ => c.failAhead .keyNotString
    | _ => c.failAhead .expectedCommaOrBrace

def readObject (value : Reader α) (c : Cursor) : Except Fault (List (String × α) × Cursor) :=
  let c := c.skipBlank
  match c.rest with
  | [] => c.failAhead .endInObject
  | '\x7d' :: _ => .ok ([], c.next)
  | '"' :: _ => readMembers value c.rest.length c
  | _ => c.failAhead .keyNotString

/-- The cursor after an array of the wrong shape: nothing is read but a closing bracket or a comma
that follows at once. -/
def leaveArray (c : Cursor) : Cursor :=
  let c := c.skipBlank
  match c.rest with
  | ']' :: _ => c.next
  | ',' :: _ => c.next.skipBlank
  | _ => c

def leaveObject (c : Cursor) : Cursor :=
  let c := c.skipBlank
  match c.rest with
  | '\x7d' :: _ => c.next
  | _ => c

def readEnd (c : Cursor) : Except Fault Unit :=
  let c := c.skipBlank
  if c.rest.isEmpty then .ok () else c.failAhead .trailingCharacters

def readText (read : Reader α) (text : String) : Except Error α :=
  let result := do
    let (x, c) ← read (.start text)
    readEnd c
    .ok x
  result.mapError (Fault.locate text)

def depthLimit : Nat := 128

def readScalar? (c : Cursor) : Option (Except Fault (Json × Cursor)) :=
  match c.rest with
  | 'n' :: _ => some do .ok (.null, ← readWord ['u', 'l', 'l'] c.next)
  | 't' :: _ => some do .ok (.bool true, ← readWord ['r', 'u', 'e'] c.next)
  | 'f' :: _ => some do .ok (.bool false, ← readWord ['a', 'l', 's', 'e'] c.next)
  | '-' :: _ => some ((readNumber true c.next).map fun (n, c) => (.number n, c))
  | '"' :: _ => some ((readString c.next).map fun (s, c) => (.string s, c))
  | d :: _ =>
    if d.isDigit then some ((readNumber false c).map fun (n, c) => (.number n, c)) else none
  | [] => none

/-- A value with at most `depth` arrays and objects around each other, that one not counted. What
becomes of the members of an object is left open. -/
def readValue (object : List (String × Json) → Json) : Nat → Cursor → Except Fault (Json × Cursor)
  | 0, c => c.failAhead .tooDeep
  | depth + 1, c =>
    let c := c.skipBlank
    match readScalar? c with
    | some reading => reading
    | none =>
      match c.rest with
      | [] => c.failAhead .endInValue
      | '[' :: _ =>
        if depth = 0 then c.failAhead .tooDeep
        else (readArray (readValue object depth) c.next).map fun (items, c) => (.array items, c)
      | '\x7b' :: _ =>
        if depth = 0 then c.failAhead .tooDeep
        else (readObject (readValue object depth) c.next).map fun (ms, c) => (object ms, c)
      | _ => c.failAhead .expectedValue

def parse (text : String) : Except Error Json :=
  readText (readValue ofMembers depthLimit) text

end Json

end UriExpansion

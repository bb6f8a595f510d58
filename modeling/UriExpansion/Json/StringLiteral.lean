import UriExpansion.Json.Fault

/-!
# JSON strings

The cursor stands behind the opening quote and moves behind the closing one. A character outside
the first plane is escaped as two surrogates, which have to come in a pair.
-/

namespace UriExpansion

namespace Json

/-- Four hexadecimal digits. Four bytes are read at once, whatever they are. -/
def readHex (c : Cursor) : Except Fault (Nat × Cursor) :=
  if (String.ofList (c.rest.take 4)).utf8ByteSize < 4 then
    .error ⟨.malformed .endInString, c.offset + (String.ofList c.rest).utf8ByteSize⟩
  else
    match natOfBase? 16 (c.rest.take 4) with
    | some n => .ok (n, ⟨c.rest.drop 4, c.offset + 4⟩)
    | none => .error ⟨.malformed .invalidEscape, c.offset + 4⟩

def isLeadSurrogate (n : Nat) : Bool :=
  0xd800 ≤ n && n ≤ 0xdbff

def isTrailSurrogate (n : Nat) : Bool :=
  0xdc00 ≤ n && n ≤ 0xdfff

def readMark (mark : Char) (c : Cursor) : Except Fault Cursor :=
  match c.rest with
  | [] => c.fail .endInString
  | x :: _ => if x = mark then .ok c.next else c.failNext .endInEscape

def readCodePoint (c : Cursor) : Except Fault (Char × Cursor) := do
  let (n, c) ← readHex c
  if isTrailSurrogate n then c.fail .loneSurrogate
  else if isLeadSurrogate n then
    let c ← readMark '\\' c
    let c ← readMark 'u' c
    let (m, c) ← readHex c
    if isTrailSurrogate m then
      .ok (Char.ofNat ((n - 0xd800) * 0x400 + (m - 0xdc00) + 0x10000), c)
    else c.fail .loneSurrogate
  else .ok (Char.ofNat n, c)

def readEscape (c : Cursor) : Except Fault (Char × Cursor) :=
  match c.rest with
  | [] => c.fail .endInString
  | x :: _ =>
    match x with
    | '"' | '\\' | '/' => .ok (x, c.next)
    | 'b' => .ok ('\x08', c.next)
    | 'f' => .ok ('\x0c', c.next)
    | 'n' => .ok ('\n', c.next)
    | 'r' => .ok ('\r', c.next)
    | 't' => .ok ('\t', c.next)
    | 'u' => readCodePoint c.next
    | _ => c.failNext .invalidEscape

def readChars : Nat → String → Cursor → Except Fault (String × Cursor)
  | 0, _, c => c.fail .endInString
  | fuel + 1, read, c =>
    match c.rest with
    | [] => c.fail .endInString
    | '"' :: _ => .ok (read, c.next)
    | '\\' :: _ => do
      let (x, c) ← readEscape c.next
      readChars fuel (read.push x) c
    | x :: _ =>
      if x < ' ' then c.failNext .controlCharacter
      else readChars fuel (read.push x) c.next

def readString (c : Cursor) : Except Fault (String × Cursor) :=
  readChars (c.rest.length + 1) "" c

end Json

end UriExpansion

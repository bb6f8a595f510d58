/-!
# Places and tokens

A mark counts characters, lines and columns from zero. A cursor holds the mark and the characters
that are left. A text is read as a sequence of tokens, each between two marks. Tags are sequences of
bytes, since they may hold escaped bytes.
-/

namespace UriExpansion

namespace Yaml

structure Mark where
  index : Nat
  line : Nat
  column : Nat
  deriving DecidableEq

def isBlank (c : Char) : Bool :=
  c = ' ' || c = '\t'

def isBreak (c : Char) : Bool :=
  c = '\n' || c = '\r' || c = '\u0085' || c = '\u2028' || c = '\u2029'

def isWordChar (c : Char) : Bool :=
  c.isAlphanum || c = '-' || c = '_'

def isAllowed (c : Char) : Bool :=
  let n := c.toNat
  c = '\t' || c = '\n' || c = '\r' || (0x20 ≤ n && n ≤ 0x7e) || n = 0x85 ||
    (0xa0 ≤ n && n ≤ 0xfffd) || 0x10000 ≤ n

structure Cursor where
  rest : List Char
  mark : Mark

namespace Cursor

def ahead (c : Cursor) (n : Nat) : Option Char :=
  c.rest[n]?

def sees (c : Cursor) (x : Char) : Bool :=
  c.rest.head? = some x

def seesAt (c : Cursor) (n : Nat) (p : Char → Bool) : Bool :=
  (c.ahead n).any p

def endsAt (c : Cursor) (n : Nat) : Bool :=
  (c.ahead n).isNone

def blankOrEnd (c : Cursor) (n : Nat) : Bool :=
  c.endsAt n || c.seesAt n isBlank || c.seesAt n isBreak

def breakOrEnd (c : Cursor) (n : Nat) : Bool :=
  c.endsAt n || c.seesAt n isBreak

def next (c : Cursor) : Cursor :=
  ⟨c.rest.tail, { c.mark with index := c.mark.index + 1, column := c.mark.column + 1 }⟩

/-- The start of a text. A byte order mark in front is passed, but takes a column. -/
def start (text : String) : Cursor :=
  let c : Cursor := ⟨text.toList, ⟨0, 0, 0⟩⟩
  if c.sees '\ufeff' then c.next else c

def nextN : Nat → Cursor → Cursor
  | 0, c => c
  | n + 1, c => nextN n c.next

def skip (p : Char → Bool) (c : Cursor) : Cursor :=
  let n := (c.rest.takeWhile p).length
  ⟨c.rest.dropWhile p, { c.mark with index := c.mark.index + n, column := c.mark.column + n }⟩

def nextLine (c : Cursor) (width : Nat) : Cursor :=
  ⟨c.rest.drop width, ⟨c.mark.index + width, c.mark.line + 1, 0⟩⟩

/-- The text of the break ahead and the cursor behind it. All breaks but the separators are read as
a line feed. -/
def takeBreak (c : Cursor) : String × Cursor :=
  match c.rest with
  | '\r' :: '\n' :: _ => ("\n", c.nextLine 2)
  | '\r' :: _ | '\n' :: _ | '\u0085' :: _ => ("\n", c.nextLine 1)
  | '\u2028' :: _ => ("\u2028", c.nextLine 1)
  | '\u2029' :: _ => ("\u2029", c.nextLine 1)
  | _ => ("", c)

def skipBlanks (c : Cursor) : Cursor :=
  c.skip isBlank

def skipComment (c : Cursor) : Cursor :=
  if c.sees '#' then c.skip (!isBreak ·) else c

def seesIndicator (c : Cursor) (x : Char) : Bool :=
  c.mark.column = 0 && c.rest.take 3 = [x, x, x] && c.blankOrEnd 3

def seesDocumentIndicator (c : Cursor) : Bool :=
  c.seesIndicator '-' || c.seesIndicator '.'

end Cursor

abbrev Bytes := List Nat

namespace Bytes

def ofAscii (s : String) : Bytes :=
  s.toList.map Char.toNat

end Bytes

inductive Token.Kind
  | streamStart
  | streamEnd
  | version (major minor : Nat)
  | tagDirective (handle : String) (lead : Bytes)
  | documentStart
  | documentEnd
  | blockSequenceStart
  | blockMappingStart
  | blockEnd
  | flowSequenceStart
  | flowSequenceEnd
  | flowMappingStart
  | flowMappingEnd
  | blockEntry
  | flowEntry
  | key
  | value
  | alias (name : String)
  | anchor (name : String)
  | tag (handle : String) (rest : Bytes)
  | scalar (text : String) (plain : Bool)
  deriving DecidableEq

structure Token where
  kind : Token.Kind
  start : Mark
  stop : Mark

end Yaml

end UriExpansion

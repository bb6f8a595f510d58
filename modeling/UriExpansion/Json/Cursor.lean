/-!
# Places in a JSON text

Readers move a cursor over the text. A fault is reported at the number of bytes read, or, when it
concerns a character that was only looked at, one byte further; it is shown as a line and a column
of bytes.
-/

namespace UriExpansion

structure Position where
  line : Nat
  column : Nat
  deriving DecidableEq

namespace Position

def ofBytes (bytes : List UInt8) : Position :=
  bytes.foldl (fun p b => if b = 10 then ⟨p.line + 1, 0⟩ else ⟨p.line, p.column + 1⟩) ⟨1, 0⟩

def ofOffset (text : String) (offset : Nat) : Position :=
  ofBytes (text.toUTF8.data.toList.take offset)

def suffix (p : Position) : String :=
  s!" at line {p.line} column {p.column}"

end Position

namespace Json

structure Cursor where
  rest : List Char
  offset : Nat

namespace Cursor

def start (text : String) : Cursor :=
  ⟨text.toList, 0⟩

def next (c : Cursor) : Cursor :=
  match c.rest with
  | [] => c
  | x :: rest => ⟨rest, c.offset + x.utf8Size⟩

def ahead (c : Cursor) : Nat :=
  if c.rest.isEmpty then c.offset else c.offset + 1

def isBlank (c : Char) : Bool :=
  c = ' ' || c = '\n' || c = '\t' || c = '\r'

def skip (p : Char → Bool) (c : Cursor) : Cursor :=
  ⟨c.rest.dropWhile p, c.offset + (String.ofList (c.rest.takeWhile p)).utf8ByteSize⟩

def skipBlank (c : Cursor) : Cursor :=
  c.skip isBlank

end Cursor

inductive SyntaxFault
  | endInList
  | endInObject
  | endInString
  | endInValue
  | expectedColon
  | expectedCommaOrBracket
  | expectedCommaOrBrace
  | expectedWord
  | expectedValue
  | invalidEscape
  | invalidNumber
  | numberOutOfRange
  | controlCharacter
  | keyNotString
  | loneSurrogate
  | trailingComma
  | trailingCharacters
  | endInEscape
  | tooDeep
  deriving DecidableEq

namespace SyntaxFault

def message : SyntaxFault → String
  | .endInList => "EOF while parsing a list"
  | .endInObject => "EOF while parsing an object"
  | .endInString => "EOF while parsing a string"
  | .endInValue => "EOF while parsing a value"
  | .expectedColon => "expected `:`"
  | .expectedCommaOrBracket => "expected `,` or `]`"
  | .expectedCommaOrBrace => "expected `,` or `\x7d`"
  | .expectedWord => "expected ident"
  | .expectedValue => "expected value"
  | .invalidEscape => "invalid escape"
  | .invalidNumber => "invalid number"
  | .numberOutOfRange => "number out of range"
  | .controlCharacter => "control character (\\u0000-\\u001F) found while parsing a string"
  | .keyNotString => "key must be a string"
  | .loneSurrogate => "lone leading surrogate in hex escape"
  | .trailingComma => "trailing comma"
  | .trailingCharacters => "trailing characters"
  | .endInEscape => "unexpected end of hex escape"
  | .tooDeep => "recursion limit exceeded"

end SyntaxFault

end Json

end UriExpansion

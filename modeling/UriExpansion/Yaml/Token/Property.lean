import UriExpansion.Decimal.Reading
import UriExpansion.Yaml.Token.Basic

/-!
# Anchors, tags and directives

Readers answer `none` when the text is malformed.
-/

namespace UriExpansion

namespace Yaml

def takeWord (c : Cursor) : String × Cursor :=
  (String.ofList (c.rest.takeWhile isWordChar), c.skip isWordChar)

def readName (c : Cursor) : Option (String × Cursor) :=
  let (name, c) := takeWord c
  let closes (x : Char) : Bool := ['?', ':', ',', ']', '\x7d', '%', '@', '`'].contains x
  if !name.isEmpty && (c.blankOrEnd 0 || c.seesAt 0 closes) then some (name, c) else none

def tagSigns : List Char :=
  [';', '/', '?', ':', '@', '&', '=', '+', '$', '.', '%', '!', '~', '*', '\'', '(', ')']

def isTagChar (verbatim : Bool) (c : Char) : Bool :=
  isWordChar c || tagSigns.contains c || (verbatim && [',', '[', ']'].contains c)

def readOctet (c : Cursor) : Option (Nat × Cursor) :=
  match c.rest with
  | '%' :: high :: low :: _ => do
    let h ← hexValue? high
    let l ← hexValue? low
    some (16 * h + l, c.nextN 3)
  | _ => none

def octetWidth? (b : Nat) : Option Nat :=
  if b < 0x80 then some 1
  else if b / 0x20 = 0x6 then some 2
  else if b / 0x10 = 0xe then some 3
  else if b / 0x8 = 0x1e then some 4
  else none

def readTrailing : Nat → Cursor → Option (Bytes × Cursor)
  | 0, c => some ([], c)
  | n + 1, c => do
    let (b, c) ← readOctet c
    if b / 0x40 = 2 then
      let (bs, c) ← readTrailing n c
      some (b :: bs, c)
    else none

def readEscaped (c : Cursor) : Option (Bytes × Cursor) := do
  let (b, c) ← readOctet c
  let width ← octetWidth? b
  let (bs, c) ← readTrailing (width - 1) c
  some (b :: bs, c)

def readTagChars (verbatim : Bool) : Nat → Cursor → Option (Bytes × Cursor)
  | 0, c => some ([], c)
  | fuel + 1, c =>
    match c.rest with
    | '%' :: _ => do
      let (bs, c) ← readEscaped c
      let (rest, c) ← readTagChars verbatim fuel c
      some (bs ++ rest, c)
    | x :: _ =>
      if isTagChar verbatim x then do
        let (rest, c) ← readTagChars verbatim fuel c.next
        some (x.toNat :: rest, c)
      else some ([], c)
    | [] => some ([], c)

/-- A zero byte ends a tag. -/
def truncate (bs : Bytes) : Bytes :=
  bs.takeWhile (· ≠ 0)

def readTagText (verbatim : Bool) (c : Cursor) : Option (Bytes × Cursor) := do
  let (bs, c') ← readTagChars verbatim c.rest.length c
  some (truncate bs, c')

def readTagText1 (verbatim : Bool) (c : Cursor) : Option (Bytes × Cursor) := do
  let (bs, c') ← readTagText verbatim c
  if c'.mark = c.mark then none else some (bs, c')

def takeHandle (c : Cursor) : Option (String × Cursor) :=
  if c.sees '!' then
    let (word, c) := takeWord c.next
    if c.sees '!' then some ("!" ++ word ++ "!", c.next) else some ("!" ++ word, c)
  else none

def isClosedHandle (handle : String) : Bool :=
  2 ≤ handle.length && handle.endsWith "!"

def readTagBody (c : Cursor) : Option ((String × Bytes) × Cursor) :=
  if c.seesAt 1 (· = '<') then do
    let (rest, c) ← readTagText1 true (c.nextN 2)
    if c.sees '>' then some (("", rest), c.next) else none
  else do
    let (handle, c) ← takeHandle c
    if isClosedHandle handle then
      let (rest, c) ← readTagText1 false c
      some ((handle, rest), c)
    else
      let (rest, c) ← readTagText false c
      let rest := Bytes.ofAscii (handle.drop 1).toString ++ rest
      if rest.isEmpty then some (("", Bytes.ofAscii "!"), c) else some (("!", rest), c)

def readTag (inFlow : Bool) (c : Cursor) : Option (Token.Kind × Cursor) := do
  let ((handle, rest), c) ← readTagBody c
  if c.blankOrEnd 0 || (inFlow && c.sees ',') then some (.tag handle rest, c) else none

def readVersionNumber (c : Cursor) : Option (Nat × Cursor) :=
  let digits := c.rest.takeWhile Char.isDigit
  if digits.isEmpty || 9 < digits.length then none
  else some (natOfDigits digits, c.skip Char.isDigit)

def readVersion (c : Cursor) : Option (Token.Kind × Cursor) := do
  let (major, c) ← readVersionNumber c.skipBlanks
  if c.sees '.' then
    let (minor, c) ← readVersionNumber c.next
    some (.version major minor, c)
  else none

def readTagDirective (c : Cursor) : Option (Token.Kind × Cursor) := do
  let (handle, c) ← takeHandle c.skipBlanks
  if (handle = "!" || isClosedHandle handle) && c.seesAt 0 isBlank then
    let (lead, c) ← readTagText1 true c.skipBlanks
    if c.blankOrEnd 0 then some (.tagDirective handle lead, c) else none
  else none

def readLineEnd (c : Cursor) : Option Cursor :=
  let c := c.skipBlanks.skipComment
  if c.breakOrEnd 0 then some c.takeBreak.2 else none

def readDirective (c : Cursor) : Option (Token.Kind × Mark × Cursor) := do
  let (name, c) := takeWord c
  if name.isEmpty || !c.blankOrEnd 0 then none
  else
    let (kind, c) ←
      if name = "YAML" then readVersion c
      else if name = "TAG" then readTagDirective c
      else none
    let after ← readLineEnd c
    some (kind, c.mark, after)

end Yaml

end UriExpansion
